import IncrementalRegex.Proofs.Grouping
import IncrementalRegex.Proofs.Proper

namespace IncrementalRegex

/-- A character that is listed in brackets, or that a range starts or ends with. -/
inductive BracketMark where
  /-- A character that stands for itself at every place in brackets. -/
  | plain (c : Char) (h : c ∉ [']', '[', '^', '-', '\\'])
  /-- A collating element of one character. -/
  | element (c : Char)

namespace BracketMark

def char : BracketMark → Char
  | plain c _ | element c => c

def spell : BracketMark → List Char
  | plain c _ => [c]
  | element c => ['[', '.', c, '.', ']']

def token : BracketMark → Token
  | plain c _ => .ofChar .bracketLiteral c
  | element c => .ofString .collate [c]

end BracketMark

inductive BracketItem where
  | mark (m : BracketMark)
  | range (first last : BracketMark) (h : first.char ≤ last.char)
  | ofClass (name : List Char) (k : CharClass) (h : CharClass.ofName? name = .ok k)
  | equivalent (c : Char)

namespace BracketItem

def spell : BracketItem → List Char
  | mark m => m.spell
  | range first last _ => first.spell ++ '-' :: last.spell
  | ofClass name _ _ => '[' :: ':' :: (name ++ [':', ']'])
  | equivalent c => ['[', '=', c, '=', ']']

def tokens : BracketItem → List Token
  | mark m => [m.token]
  | range first last _ => [first.token, .ofChar .rangeDash '-', last.token]
  | ofClass name _ _ => [.ofString .className name]
  | equivalent c => [.ofString .equiv [c]]

/-- Whether the item stands for `c`, possibly among others. -/
def Lists (c : Char) : BracketItem → Prop
  | mark m => c = m.char
  | range first last _ => first.char ≤ c ∧ c ≤ last.char
  | ofClass _ k _ => k.contains c
  | equivalent e => c = e

end BracketItem

/-- A sign that is an ordinary character directly after the opening bracket. -/
inductive BracketSign where
  | closing
  | dash

def BracketSign.char : BracketSign → Char
  | closing => ']'
  | dash => '-'

/-- A bracket expression with at least one member. -/
structure BracketList where
  negated : Bool
  leading : Option BracketSign
  items : List BracketItem
  /-- Whether a dash precedes the closing bracket. -/
  trailing : Bool
  nonempty : leading.isSome ∨ items ≠ [] ∨ trailing

namespace BracketList

/-- The ordinary characters before the items. -/
def before (b : BracketList) : List Char := b.leading.toList.map BracketSign.char

/-- The ordinary characters behind the items. -/
def behind (b : BracketList) : List Char := if b.trailing then ['-'] else []

def spell (b : BracketList) : List Char :=
  '[' :: ((if b.negated then ['^'] else []) ++
    (b.before ++ (b.items.flatMap BracketItem.spell ++ (b.behind ++ [']']))))

def tokens (b : BracketList) : List Token :=
  .ofChar .lBracket '[' :: ((if b.negated then [.ofChar .negation '^'] else []) ++
    (b.before.map (.ofChar .bracketLiteral) ++ (b.items.flatMap BracketItem.tokens ++
      (b.behind.map (.ofChar .bracketLiteral) ++ [.ofChar .rBracket ']']))))

/-- Whether `c` is a member of the list, negation apart. -/
def Lists (b : BracketList) (c : Char) : Prop :=
  (∃ l ∈ b.leading, c = l.char) ∨ (∃ i ∈ b.items, i.Lists c) ∨ (b.trailing ∧ c = '-')

theorem lists_iff {b : BracketList} {c : Char} :
    b.Lists c ↔ (c ∈ b.before ∨ ∃ i ∈ b.items, i.Lists c) ∨ c ∈ b.behind := by
  have hbefore : c ∈ b.before ↔ ∃ l ∈ b.leading, c = l.char := by
    simp [before, eq_comm]
  have hbehind : c ∈ b.behind ↔ b.trailing ∧ c = '-' := by
    unfold behind
    cases b.trailing <;> simp
  rw [hbefore, hbehind, or_assoc]
  rfl

end BracketList

variable {d : Dialect} {ignoreCase : Bool}

namespace Lexicon

theorem read_bracket_plain {c : Char} (hc : c ∉ [']', '[', '^', '-', '\\'])
    (before rest : List Char) : (bracket d).read ⟨before, c :: rest⟩ =
      .ok (some (.ofChar .bracketLiteral c, ⟨c :: before, rest⟩)) := by
  simp only [List.mem_cons, List.not_mem_nil, or_false, not_or] at hc
  obtain ⟨hclose, hopen, hcaret, hdash, hbackslash⟩ := hc
  have hescape : (bracket d).escape? c ⟨c :: before, rest⟩ = none := by
    cases d <;> simp [escape?, bracket, List.lookup_cons, beq_eq_false_iff_ne.mpr hopen,
      beq_eq_false_iff_ne.mpr hbackslash]
  have hkind : (bracket d).alone.kind? c = some .bracketLiteral := by
    refine KindTable.kind_of_notMem rfl fun p hp he => ?_
    simp only [bracket, KindTable.inBracket, List.mem_cons, List.not_mem_nil, or_false] at hp
    rcases hp with rfl | rfl | rfl
    · exact hclose he.symm
    · exact hcaret he.symm
    · exact hdash he.symm
  exact read_eq_some_iff.mpr (.alone rfl hescape hkind rfl)

theorem read_bracket_close (before rest : List Char) : (bracket d).read ⟨before, ']' :: rest⟩ =
    .ok (some (.ofChar .rBracket ']', ⟨']' :: before, rest⟩)) := by
  cases d <;> rfl

theorem read_bracket_dash (before rest : List Char) : (bracket d).read ⟨before, '-' :: rest⟩ =
    .ok (some (.ofChar .rangeDash '-', ⟨'-' :: before, rest⟩)) := by
  cases d <;> rfl

end Lexicon

namespace Cursor

variable {x : Char} {span : List Char}

/-- The first closing bracket after the first character of a span is the one that ends it. -/
theorem findDelimiter_closing (hx : x ≠ ']') (hspan : ']' ∉ span.tail) (rest : List Char) :
    findDelimiter [x, ']'] (span ++ x :: ']' :: rest) = some span := by
  induction span with
  | nil => simp [findDelimiter]
  | cons y ys ih =>
    have hnot : [x, ']'].isPrefixOf (y :: (ys ++ x :: ']' :: rest)) = false := by
      cases ys with
      | nil => simp [List.isPrefixOf, hx.symm]
      | cons z zs =>
        have hz : ']' ≠ z := fun he => hspan (he ▸ List.mem_cons_self)
        simp [List.isPrefixOf, hz]
    have hfind := ih fun h => hspan (List.mem_of_mem_tail h)
    rw [List.cons_append, findDelimiter, hnot, hfind]
    rfl

theorem through_closing (hx : x ≠ ']') (hspan : ']' ∉ span.tail) (before rest : List Char) :
    ∃ before', through ⟨before, span ++ x :: ']' :: rest⟩ [x, ']'] =
      (span, true, ⟨before', rest⟩) := by
  rw [through, findDelimiter_closing hx hspan]
  simp [advance]

end Cursor

namespace Lexicon

/-- What is named in brackets of its own is read up to the sign that it started with. -/
theorem read_bracket_named {x : Char} {kind : TokenKind} {span : List Char}
    (hx : (x, kind) ∈ KindTable.bracketOpener.entries) (hspan : ']' ∉ span.tail)
    (before rest : List Char) : ∃ before',
    (bracket d).read ⟨before, '[' :: x :: (span ++ x :: ']' :: rest)⟩ =
      .ok (some (.ofString kind span, ⟨before', rest⟩)) := by
  simp only [KindTable.bracketOpener, List.mem_cons, List.not_mem_nil, or_false,
    Prod.mk.injEq] at hx
  have hclosing : x ≠ ']' := by
    rcases hx with ⟨rfl, -⟩ | ⟨rfl, -⟩ | ⟨rfl, -⟩ <;> decide
  obtain ⟨before', hthrough⟩ :=
    Cursor.through_closing hclosing hspan (x :: '[' :: before) rest
  have hkind : KindTable.bracketOpener.kind? x = some kind := by
    rcases hx with ⟨rfl, rfl⟩ | ⟨rfl, rfl⟩ | ⟨rfl, rfl⟩ <;> rfl
  have htoken : (bracket d).tokenOf kind x ⟨x :: '[' :: before, span ++ x :: ']' :: rest⟩ =
      .ok (.ofString kind span, ⟨before', rest⟩) := by
    rcases hx with ⟨rfl, rfl⟩ | ⟨rfl, rfl⟩ | ⟨rfl, rfl⟩ <;> simp only [tokenOf, hthrough]
  have hescape : (bracket d).escape? '[' ⟨'[' :: before, x :: (span ++ x :: ']' :: rest)⟩ =
      some (kind, x, ⟨x :: '[' :: before, span ++ x :: ']' :: rest⟩) :=
    escape_eq_some_iff.mpr ⟨_, rfl, rfl, hkind⟩
  exact ⟨before', read_eq_some_iff.mpr (.pair rfl hescape htoken)⟩

end Lexicon

theorem CharClass.notMem_of_ofName {name : List Char} {k : CharClass} (h : ofName? name = .ok k) :
    ']' ∉ name := by
  unfold ofName? at h
  generalize hname : String.ofList name = s at h
  rw [← String.toList_ofList (l := name), hname]
  split at h <;> first | decide | cases h

theorem BracketMark.read (m : BracketMark) (before rest : List Char) : ∃ before',
    (Lexicon.bracket d).read ⟨before, m.spell ++ rest⟩ =
      .ok (some (m.token, ⟨before', rest⟩)) := by
  cases m with
  | plain c h => exact ⟨_, Lexicon.read_bracket_plain h before rest⟩
  | element c =>
    have hspan : ']' ∉ [c].tail := List.not_mem_nil
    exact Lexicon.read_bracket_named (by decide : ('.', TokenKind.collate) ∈ _) hspan before rest

namespace BracketPlace

/-- A place where the list may end. -/
def IsAfterMember (p : BracketPlace) : Prop := p = .afterItem ∨ p = .afterRangeStart

theorem IsAfterMember.ne_afterDash {p : BracketPlace} (h : p.IsAfterMember) : p ≠ .afterDash := by
  rcases h with rfl | rfl <;> decide

theorem meaning_mark (p : BracketPlace) (m : BracketMark) : p.meaning m.token = m.token := by
  cases m <;> cases p <;> rfl

theorem after_mark {p : BracketPlace} (hp : p ≠ .afterDash) (m : BracketMark) :
    p.after m.token = .afterRangeStart := by
  cases m with
  | element c => cases p <;> first | rfl | contradiction
  | plain c h =>
    simp only [List.mem_cons, List.not_mem_nil, or_false, not_or] at h
    cases p <;> simp_all [after, BracketMark.token, Token.ofChar]

end BracketPlace

theorem BracketMark.standsInBracket (m : BracketMark) : m.token.kind.standsInBracket := by
  cases m <;> rfl

theorem BracketMark.endsRange (m : BracketMark) :
    m.token.kind = .bracketLiteral ∨ m.token.kind = .collate := by
  cases m with
  | plain c h => exact .inl rfl
  | element c => exact .inr rfl

namespace BracketReader

variable {p : BracketPlace} {c c' : Cursor} {t : Token}

/-- With nothing held back, what is read is what stands there, as it is meant at this place. -/
theorem reads_of_read (h : (Lexicon.bracket d).read c = .ok (some (t, c')))
    (hk : (p.meaning t).hasKind .rangeDash = false) :
    Reads d ⟨p, {}⟩ c (p.meaning t) ⟨p.after (p.meaning t), {}⟩ c' :=
  .plain (raw_eq_some_iff.mpr (.inr ⟨rfl, rfl, h⟩)) hk

theorem reads_mark (m : BracketMark) (hp : p ≠ .afterDash) (before rest : List Char) :
    ∃ before', Reads d ⟨p, {}⟩ ⟨before, m.spell ++ rest⟩ m.token ⟨.afterRangeStart, {}⟩
      ⟨before', rest⟩ := by
  obtain ⟨before', hread⟩ := m.read (d := d) before rest
  have hk : (p.meaning m.token).hasKind .rangeDash = false := by
    rw [BracketPlace.meaning_mark]
    cases m <;> rfl
  have hreads := reads_of_read hread hk
  rw [BracketPlace.meaning_mark, BracketPlace.after_mark hp] at hreads
  exact ⟨before', hreads⟩

/-- A dash after what may start a range is read together with the end of the range. -/
theorem reads_dash {before rest : List Char}
    (h : (Lexicon.bracket d).read ⟨'-' :: before, rest⟩ = .ok (some (t, c')))
    (ht : t.hasKind .rBracket = false) :
    Reads d ⟨.afterRangeStart, {}⟩ ⟨before, '-' :: rest⟩ (.ofChar .rangeDash '-')
      ⟨.afterDash, ⟨[t]⟩⟩ c' := by
  have hdash := Lexicon.read_bracket_dash (d := d) before rest
  exact .dash (raw_eq_some_iff.mpr (.inr ⟨rfl, rfl, hdash⟩)) rfl h ht

/-- Neither a class nor an equivalence starts a range. -/
theorem reads_named {x : Char} {kind : TokenKind} {span : List Char}
    (hx : (x, kind) ∈ [(':', TokenKind.className), ('=', .equiv)]) (hspan : ']' ∉ span.tail)
    (before rest : List Char) : ∃ before',
    Reads d ⟨p, {}⟩ ⟨before, '[' :: x :: (span ++ x :: ']' :: rest)⟩ (.ofString kind span)
      ⟨.afterItem, {}⟩ ⟨before', rest⟩ := by
  obtain ⟨before', hread⟩ := Lexicon.read_bracket_named (d := d)
    (List.mem_append_left [('.', TokenKind.collate)] hx) hspan before rest
  simp only [List.mem_cons, List.not_mem_nil, or_false, Prod.mk.injEq] at hx
  have hmeaning : p.meaning (.ofString kind span) = .ofString kind span ∧
      p.after (.ofString kind span) = .afterItem := by
    rcases hx with ⟨-, rfl⟩ | ⟨-, rfl⟩ <;> cases p <;> exact ⟨rfl, rfl⟩
  have hk : (p.meaning (.ofString kind span)).hasKind .rangeDash = false := by
    rw [hmeaning.1]
    rcases hx with ⟨-, rfl⟩ | ⟨-, rfl⟩ <;> rfl
  have hreads := reads_of_read hread hk
  rw [hmeaning.1, hmeaning.2] at hreads
  exact ⟨before', hreads⟩

theorem reads_leading (l : BracketSign) (hp : p = .start ∨ p = .afterCaret)
    (before rest : List Char) :
    Reads d ⟨p, {}⟩ ⟨before, l.char :: rest⟩ (.ofChar .bracketLiteral l.char) ⟨.afterItem, {}⟩
      ⟨l.char :: before, rest⟩ := by
  cases l with
  | closing =>
    have hread := Lexicon.read_bracket_close (d := d) before rest
    rcases hp with rfl | rfl <;> exact reads_of_read hread rfl
  | dash =>
    have hread := Lexicon.read_bracket_dash (d := d) before rest
    rcases hp with rfl | rfl <;> exact reads_of_read hread rfl

theorem reads_close (hp : p.IsAfterMember) (before rest : List Char) :
    Reads d ⟨p, {}⟩ ⟨before, ']' :: rest⟩ (.ofChar .rBracket ']') {} ⟨']' :: before, rest⟩ := by
  have hread := Lexicon.read_bracket_close (d := d) before rest
  rcases hp with rfl | rfl <;> exact reads_of_read hread rfl

theorem reads_rangeEnd (ht : t.kind = .bracketLiteral ∨ t.kind = .collate) :
    Reads d ⟨.afterDash, ⟨[t]⟩⟩ c t ⟨.afterItem, {}⟩ c := by
  have hraw : raw d ⟨.afterDash, ⟨[t]⟩⟩ c = .ok (some (t, {}, c)) :=
    raw_eq_some_iff.mpr (.inl ⟨rfl, rfl⟩)
  have hmeaning : BracketPlace.afterDash.meaning t = t ∧
      BracketPlace.afterDash.after t = .afterItem ∧ t.hasKind .rangeDash = false := by
    rcases ht with hk | hk <;> simp [BracketPlace.meaning, BracketPlace.after, Token.hasKind, hk]
  have hreads := Reads.plain hraw (by rw [hmeaning.1, hmeaning.2.2])
  rwa [hmeaning.1, hmeaning.2.1] at hreads

end BracketReader

namespace TokenReader

/-- The reader in brackets. -/
def inBracket (d : Dialect) (ignoreCase : Bool) (r : BracketReader) (c : Cursor) : TokenReader :=
  { fresh d ignoreCase c with context := .bracket, bracket := r }

section

variable {r r' : BracketReader} {c c' : Cursor} {t : Token}

theorem read_inBracket (h : r.Reads d c t r' c') (ht : t.kind.standsInBracket) :
    (inBracket d ignoreCase r c).read = .ok (some (t, inBracket d ignoreCase r' c')) := by
  have hread := BracketReader.read_eq_some_iff.mpr h
  have hnothing : Nesting.closesNothing {} t.kind = false := by
    simp [Nesting.closesNothing, (TokenKind.ne_of_standsInBracket ht).2.1]
  refine read_eq_some_iff.mpr
    ⟨_, readInContext_eq_some_iff.mpr (.bracket rfl hread), hnothing, ?_⟩
  dsimp only [inBracket, fresh]
  rw [Context.after_of_standsInBracket ht, Nesting.after_of_standsInBracket ht]

theorem read_inBracket_close (h : r.Reads d c (.ofChar .rBracket ']') {} c') :
    (inBracket d ignoreCase r c).read =
      .ok (some (.ofChar .rBracket ']', fresh d ignoreCase c')) := by
  have hread := BracketReader.read_eq_some_iff.mpr h
  exact read_eq_some_iff.mpr ⟨_, readInContext_eq_some_iff.mpr (.bracket rfl hread), rfl, rfl⟩

end

variable {p : BracketPlace}

/-- A range is read as its ends and the dash. -/
theorem readsTo_range {t t' : Token} {c c' : Cursor} {before rest : List Char}
    (hfirst : BracketReader.Reads d ⟨p, {}⟩ c t ⟨.afterRangeStart, {}⟩ ⟨before, '-' :: rest⟩)
    (ht : t.kind = .bracketLiteral ∨ t.kind = .collate)
    (hlast : (Lexicon.bracket d).read ⟨'-' :: before, rest⟩ = .ok (some (t', c')))
    (ht' : t'.kind = .bracketLiteral ∨ t'.kind = .collate) :
    (inBracket d ignoreCase ⟨p, {}⟩ c).ReadsTo [t, .ofChar .rangeDash '-', t']
      (inBracket d ignoreCase ⟨.afterItem, {}⟩ c') := by
  have hstands {u : Token} (hu : u.kind = .bracketLiteral ∨ u.kind = .collate) :
      u.kind.standsInBracket ∧ u.hasKind .rBracket = false := by
    rcases hu with hk | hk <;> simp [TokenKind.standsInBracket, Token.hasKind, hk]
  have hdash := BracketReader.reads_dash hlast (hstands ht').2
  have hend := BracketReader.reads_rangeEnd (d := d) (c := c') ht'
  exact .step (read_inBracket hfirst (hstands ht).1) (.step (read_inBracket hdash rfl)
    (.step (read_inBracket hend (hstands ht').1) (.refl _)))

theorem readsTo_item (i : BracketItem) (hp : p ≠ .afterDash) (before rest : List Char) :
    ∃ p' before', p'.IsAfterMember ∧
      (inBracket d ignoreCase ⟨p, {}⟩ ⟨before, i.spell ++ rest⟩).ReadsTo i.tokens
        (inBracket d ignoreCase ⟨p', {}⟩ ⟨before', rest⟩) := by
  cases i with
  | mark m =>
    obtain ⟨before', hreads⟩ := BracketReader.reads_mark m hp before rest
    exact ⟨_, before', .inr rfl, .step (read_inBracket hreads m.standsInBracket) (.refl _)⟩
  | range first last h =>
    obtain ⟨b₁, hfirst⟩ := BracketReader.reads_mark first hp before ('-' :: (last.spell ++ rest))
    obtain ⟨b₂, hlast⟩ := last.read (d := d) ('-' :: b₁) rest
    refine ⟨_, b₂, .inl rfl, ?_⟩
    rw [BracketItem.spell, List.append_assoc, List.cons_append]
    exact readsTo_range hfirst first.endsRange hlast last.endsRange
  | ofClass name k h =>
    have hspan : ']' ∉ name.tail := fun hm =>
      CharClass.notMem_of_ofName h (List.mem_of_mem_tail hm)
    obtain ⟨before', hreads⟩ := BracketReader.reads_named (p := p)
      (by simp : (':', TokenKind.className) ∈ _) hspan before rest
    refine ⟨_, before', .inl rfl, ?_⟩
    rw [BracketItem.spell, List.cons_append, List.cons_append, List.append_assoc]
    exact .step (read_inBracket hreads rfl) (.refl _)
  | equivalent c =>
    have hspan : ']' ∉ [c].tail := List.not_mem_nil
    obtain ⟨before', hreads⟩ := BracketReader.reads_named (p := p)
      (by simp : ('=', TokenKind.equiv) ∈ _) hspan before rest
    exact ⟨_, before', .inl rfl, .step (read_inBracket hreads rfl) (.refl _)⟩

theorem readsTo_items (items : List BracketItem) (hp : p ≠ .afterDash)
    (before rest : List Char) : ∃ p' before', p' ≠ .afterDash ∧
      (p.IsAfterMember ∨ items ≠ [] → p'.IsAfterMember) ∧
      (inBracket d ignoreCase ⟨p, {}⟩
        ⟨before, items.flatMap BracketItem.spell ++ rest⟩).ReadsTo
        (items.flatMap BracketItem.tokens) (inBracket d ignoreCase ⟨p', {}⟩ ⟨before', rest⟩) := by
  induction items generalizing p before with
  | nil => exact ⟨p, before, hp, fun h => h.resolve_right (absurd rfl), .refl _⟩
  | cons i items ih =>
    obtain ⟨p₁, b₁, hafter, hitem⟩ := readsTo_item i hp before
      (items.flatMap BracketItem.spell ++ rest)
    obtain ⟨p₂, b₂, hp₂, hafter₂, hitems⟩ := ih hafter.ne_afterDash b₁
    refine ⟨p₂, b₂, hp₂, fun _ => hafter₂ (.inl hafter), ?_⟩
    rw [List.flatMap_cons, List.flatMap_cons, List.append_assoc]
    exact hitem.trans hitems

theorem readsTo_close (hp : p.IsAfterMember) (before rest : List Char) :
    (inBracket d ignoreCase ⟨p, {}⟩ ⟨before, ']' :: rest⟩).ReadsTo [.ofChar .rBracket ']']
      (fresh d ignoreCase ⟨']' :: before, rest⟩) :=
  .step (read_inBracket_close (BracketReader.reads_close hp before rest)) (.refl _)

/-- After what may start a range, a dash is read together with the bracket behind it. -/
theorem readsTo_dash_close (before rest : List Char) :
    (inBracket d ignoreCase ⟨.afterRangeStart, {}⟩ ⟨before, '-' :: ']' :: rest⟩).ReadsTo
      [.ofChar .bracketLiteral '-', .ofChar .rBracket ']']
      (fresh d ignoreCase ⟨']' :: '-' :: before, rest⟩) := by
  have hdash := Lexicon.read_bracket_dash (d := d) before (']' :: rest)
  have hnext := Lexicon.read_bracket_close (d := d) ('-' :: before) rest
  have hliteral : BracketReader.Reads d ⟨.afterRangeStart, {}⟩ ⟨before, '-' :: ']' :: rest⟩
      (.ofChar .bracketLiteral '-') ⟨.afterRangeStart, ⟨[.ofChar .rBracket ']']⟩⟩
      ⟨']' :: '-' :: before, rest⟩ :=
    .literalDash (BracketReader.raw_eq_some_iff.mpr (.inr ⟨rfl, rfl, hdash⟩)) rfl hnext rfl
  have hheld : BracketReader.raw d ⟨.afterRangeStart, ⟨[.ofChar .rBracket ']']⟩⟩
      ⟨']' :: '-' :: before, rest⟩ =
        .ok (some (.ofChar .rBracket ']', {}, ⟨']' :: '-' :: before, rest⟩)) := rfl
  have hclose : BracketReader.Reads d ⟨.afterRangeStart, ⟨[.ofChar .rBracket ']']⟩⟩
      ⟨']' :: '-' :: before, rest⟩ (.ofChar .rBracket ']') {} ⟨']' :: '-' :: before, rest⟩ :=
    .plain hheld rfl
  exact .step (read_inBracket hliteral rfl) (.step (read_inBracket_close hclose) (.refl _))

/-- A dash before the closing bracket is an ordinary character at every place. -/
theorem readsTo_ending (trailing : Bool) (hp : p ≠ .afterDash)
    (hafter : trailing = false → p.IsAfterMember) (before rest : List Char) : ∃ before',
    (inBracket d ignoreCase ⟨p, {}⟩
      ⟨before, (if trailing then ['-'] else []) ++ ']' :: rest⟩).ReadsTo
      ((if trailing then ['-'] else []).map (.ofChar .bracketLiteral) ++ [.ofChar .rBracket ']'])
      (fresh d ignoreCase ⟨before', rest⟩) := by
  cases trailing with
  | false => exact ⟨_, readsTo_close (hafter rfl) before rest⟩
  | true =>
    by_cases hstart : p = .afterRangeStart
    · subst hstart
      exact ⟨_, readsTo_dash_close before rest⟩
    · have hmeaning : p.meaning (.ofChar .rangeDash '-') = .ofChar .bracketLiteral '-' ∧
          (p.after (.ofChar .bracketLiteral '-')).IsAfterMember := by
        cases p with
        | start | afterCaret => exact ⟨rfl, .inl rfl⟩
        | afterItem => exact ⟨rfl, .inr rfl⟩
        | afterRangeStart | afterDash => contradiction
      have hliteral := BracketReader.reads_of_read
        (Lexicon.read_bracket_dash (d := d) before (']' :: rest)) (by rw [hmeaning.1]; rfl)
      rw [hmeaning.1] at hliteral
      exact ⟨_, .step (read_inBracket hliteral rfl) (readsTo_close hmeaning.2 _ rest)⟩

/-- A caret counts only directly after the opening bracket. -/
theorem readsTo_opening (negated : Bool) (before rest : List Char) : ∃ p before',
    (p = .start ∨ p = .afterCaret) ∧
      (fresh d ignoreCase ⟨before, '[' :: ((if negated then ['^'] else []) ++ rest)⟩).ReadsTo
        (.ofChar .lBracket '[' :: if negated then [.ofChar .negation '^'] else [])
        (inBracket d ignoreCase ⟨p, {}⟩ ⟨before', rest⟩) := by
  have hopen (rest : List Char) : (fresh d ignoreCase ⟨before, '[' :: rest⟩).read =
      .ok (some (.ofChar .lBracket '[', inBracket d ignoreCase {} ⟨'[' :: before, rest⟩)) := by
    cases d <;> rfl
  cases negated with
  | false => exact ⟨_, _, .inl rfl, .step (hopen rest) (.refl _)⟩
  | true =>
    have hcaret : (Lexicon.bracket d).read ⟨'[' :: before, '^' :: rest⟩ =
        .ok (some (.ofChar .negation '^', ⟨'^' :: '[' :: before, rest⟩)) := by
      cases d <;> rfl
    have hreads : BracketReader.Reads d {} ⟨'[' :: before, '^' :: rest⟩ (.ofChar .negation '^')
        ⟨.afterCaret, {}⟩ ⟨'^' :: '[' :: before, rest⟩ := BracketReader.reads_of_read hcaret rfl
    exact ⟨_, _, .inr rfl,
      .step (hopen ('^' :: rest)) (.step (read_inBracket hreads rfl) (.refl _))⟩

theorem readsTo_leading (leading : Option BracketSign) (hp : p = .start ∨ p = .afterCaret)
    (before rest : List Char) : ∃ p' before', p' ≠ .afterDash ∧
      (leading.isSome → p'.IsAfterMember) ∧
      (inBracket d ignoreCase ⟨p, {}⟩
        ⟨before, leading.toList.map BracketSign.char ++ rest⟩).ReadsTo
        ((leading.toList.map BracketSign.char).map (.ofChar .bracketLiteral))
        (inBracket d ignoreCase ⟨p', {}⟩ ⟨before', rest⟩) := by
  cases leading with
  | none =>
    refine ⟨p, before, ?_, fun h => (by cases h), .refl _⟩
    rcases hp with rfl | rfl <;> decide
  | some l =>
    have hreads := BracketReader.reads_leading (d := d) l hp before rest
    exact ⟨.afterItem, _, by decide, fun _ => .inl rfl,
      .step (read_inBracket hreads rfl) (.refl _)⟩

theorem readsTo_bracketList (d : Dialect) (ignoreCase : Bool) (b : BracketList)
    (before rest : List Char) : ∃ before',
    (fresh d ignoreCase ⟨before, b.spell ++ rest⟩).ReadsTo b.tokens
      (fresh d ignoreCase ⟨before', rest⟩) := by
  let last := b.behind ++ ']' :: rest
  let middle := b.items.flatMap BracketItem.spell ++ last
  obtain ⟨p₁, b₁, hp₁, hopening⟩ := readsTo_opening (d := d) b.negated before (b.before ++ middle)
  obtain ⟨p₂, b₂, hp₂, hafter₂, hleading⟩ := readsTo_leading b.leading hp₁ b₁ middle
  obtain ⟨p₃, b₃, hp₃, hafter₃, hitems⟩ := readsTo_items b.items hp₂ b₂ last
  have hafter : b.trailing = false → p₃.IsAfterMember := by
    intro htrailing
    rcases b.nonempty with h | h | h
    · exact hafter₃ (.inl (hafter₂ h))
    · exact hafter₃ (.inr h)
    · rw [htrailing] at h
      cases h
  obtain ⟨b₄, hending⟩ := readsTo_ending b.trailing hp₃ hafter b₃ rest
  have hspell : b.spell ++ rest =
      '[' :: ((if b.negated then ['^'] else []) ++ (b.before ++ middle)) := by
    simp [BracketList.spell, middle, last]
  rw [hspell]
  exact ⟨b₄, hopening.trans (hleading.trans (hitems.trans hending))⟩

end TokenReader

/-- The set `s'` is the set `s` with the characters that `added` tells. -/
structure CharSet.Adds (s s' : CharSet) (added : Char → Prop) : Prop where
  ignoreCase : s'.ignoreCase = s.ignoreCase
  negated : s'.negated = s.negated
  lists : ∀ c, s'.lists c ↔ s.lists c ∨ added c

namespace CharSet

theorem adds_char (s : CharSet) (e : Char) : s.Adds (s.addChar e) (· = e) where
  ignoreCase := rfl
  negated := rfl
  lists c := by
    simp only [lists, addChar, List.contains_cons, Bool.or_eq_true, beq_iff_eq]
    tauto

theorem adds_class (s : CharSet) (k : CharClass) : s.Adds (s.addClass k false) (k.contains ·) where
  ignoreCase := rfl
  negated := rfl
  lists c := by
    simp only [lists, addClass, List.any_cons, Bool.or_eq_true, Bool.bne_false]
    tauto

/-- The start of a range is listed before the range is. -/
theorem adds_range (s : CharSet) {first last : Char} (h : first ≤ last) :
    ∃ s', (s.addChar first).addRange first last = .ok s' ∧
      s.Adds s' fun c => first ≤ c ∧ c ≤ last := by
  refine ⟨_, if_neg (Char.not_lt.mpr h), rfl, rfl, fun c => ?_⟩
  have hfirst : c = first → first ≤ c ∧ c ≤ last := by
    rintro rfl
    exact ⟨Char.le_refl c, h⟩
  simp only [lists, addChar, List.contains_cons, List.any_cons, Bool.or_eq_true, beq_iff_eq,
    Bool.and_eq_true, decide_eq_true_eq]
  tauto

theorem Adds.refl (s : CharSet) : s.Adds s fun _ => False where
  ignoreCase := rfl
  negated := rfl
  lists c := by rw [or_false]

theorem Adds.trans {s s' s'' : CharSet} {p q : Char → Prop} (h : s.Adds s' p) (h' : s'.Adds s'' q) :
    s.Adds s'' fun c => p c ∨ q c where
  ignoreCase := h'.ignoreCase.trans h.ignoreCase
  negated := h'.negated.trans h.negated
  lists c := by rw [h'.lists, h.lists, or_assoc]

end CharSet

namespace Parser

variable {g : Grammar} {p : Parser} {us : List Token}

theorem step_mark (m : BracketMark) (s : CharSet) (r : Option Char) :
    (p.expect (.bracketItem s r)).step g m.token =
      .ok (p.expect (.bracketItem (s.addChar m.char) (some m.char))) := by
  cases m <;> rfl

theorem step_rangeEnd (m : BracketMark) {s s' : CharSet} {first : Char}
    (h : s.addRange first m.char = .ok s') :
    (p.expect (.rangeEnd s first)).step g m.token = .ok (p.expect (.bracketItem s' none)) := by
  cases m with
  | plain c _ =>
    rw [BracketMark.char] at h
    simp only [step, expect, rangeEnd, BracketMark.token, Token.ofChar, pure_bind, h]
    rfl
  | element c =>
    rw [BracketMark.char] at h
    have hlast : singleElement [c] = .ok c := rfl
    simp only [step, expect, rangeEnd, BracketMark.token, Token.ofString, hlast]
    exact bind_eq_ok.mpr ⟨c, rfl, by rw [h]; rfl⟩

/-- The tokens of a range add what lies between its ends. -/
theorem takeAll_range {t t' : Token} {first last : Char} (s : CharSet) (h : first ≤ last)
    (hfirst : ∀ r, (p.expect (.bracketItem s r)).step g t =
      .ok (p.expect (.bracketItem (s.addChar first) (some first))))
    (hlast : ∀ s', (s.addChar first).addRange first last = .ok s' →
      (p.expect (.rangeEnd (s.addChar first) first)).step g t' =
        .ok (p.expect (.bracketItem s' none))) :
    ∃ s', s.Adds s' (fun c => first ≤ c ∧ c ≤ last) ∧ ∀ r us,
      (p.expect (.bracketItem s r)).takeAll g ([t, .ofChar .rangeDash '-', t'] ++ us) =
        (p.expect (.bracketItem s' none)).takeAll g us := by
  obtain ⟨s', hrange, hadds⟩ := s.adds_range h
  refine ⟨s', hadds, fun r us => ?_⟩
  have hdash : (p.expect (.bracketItem (s.addChar first) (some first))).step g
      (.ofChar .rangeDash '-') = .ok (p.expect (.rangeEnd (s.addChar first) first)) := rfl
  rw [List.cons_append, takeAll_cons (hfirst r), List.cons_append, takeAll_cons hdash,
    List.cons_append, takeAll_cons (hlast s' hrange), List.nil_append]

/-- An item adds what it lists. -/
theorem takeAll_item (i : BracketItem) (s : CharSet) : ∃ s' r', s.Adds s' i.Lists ∧ ∀ r us,
    (p.expect (.bracketItem s r)).takeAll g (i.tokens ++ us) =
      (p.expect (.bracketItem s' r')).takeAll g us := by
  cases i with
  | mark m =>
    exact ⟨_, some m.char, s.adds_char m.char, fun r us => takeAll_cons (step_mark m s r)⟩
  | range first last h =>
    obtain ⟨s', hadds, htake⟩ :=
      takeAll_range s h (step_mark first s) (fun _ hrange => step_rangeEnd last hrange)
    exact ⟨s', none, hadds, htake⟩
  | ofClass name k h =>
    refine ⟨_, none, s.adds_class k, fun r us => takeAll_cons ?_⟩
    simp only [step, expect, bracketItem, Token.ofString, h]
  | equivalent c => exact ⟨_, none, s.adds_char c, fun r us => takeAll_cons rfl⟩

theorem takeAll_items (items : List BracketItem) (s : CharSet) (r : Option Char) : ∃ s' r',
    s.Adds s' (fun c => ∃ i ∈ items, i.Lists c) ∧ ∀ us,
      (p.expect (.bracketItem s r)).takeAll g (items.flatMap BracketItem.tokens ++ us) =
        (p.expect (.bracketItem s' r')).takeAll g us := by
  induction items generalizing s r with
  | nil => exact ⟨s, r, by simpa using CharSet.Adds.refl s, fun _ => rfl⟩
  | cons i items ih =>
    obtain ⟨s₁, r₁, hadds₁, hitem⟩ := takeAll_item i s
    obtain ⟨s₂, r₂, hadds₂, hitems⟩ := ih s₁ r₁
    refine ⟨s₂, r₂, by simpa using hadds₁.trans hadds₂, fun us => ?_⟩
    rw [List.flatMap_cons, List.append_assoc, hitem, hitems]

theorem takeAll_literals (cs : List Char) (s : CharSet) (r : Option Char) : ∃ s' r',
    s.Adds s' (· ∈ cs) ∧ ∀ us,
      (p.expect (.bracketItem s r)).takeAll g (cs.map (.ofChar .bracketLiteral) ++ us) =
        (p.expect (.bracketItem s' r')).takeAll g us := by
  induction cs generalizing s r with
  | nil => exact ⟨s, r, by simpa using CharSet.Adds.refl s, fun _ => rfl⟩
  | cons c cs ih =>
    obtain ⟨s', r', hadds, hlater⟩ := ih (s.addChar c) (some c)
    refine ⟨s', r', by simpa using (s.adds_char c).trans hadds, fun us => ?_⟩
    have hfirst : (p.expect (.bracketItem s r)).step g (.ofChar .bracketLiteral c) =
        .ok (p.expect (.bracketItem (s.addChar c) (some c))) := rfl
    rw [List.map_cons, List.cons_append, takeAll_cons hfirst, hlater]

/-- The pattern of a bracket expression is a test whether a character is in the set. -/
theorem takeAll_bracketList (b : BracketList) (hp : p.expecting = .element) : ∃ s : CharSet,
    s.ignoreCase = g.ignoreCase ∧ s.negated = b.negated ∧ (∀ c, s.lists c ↔ b.Lists c) ∧
      p.takeAll g b.tokens = .ok (p.push (.satisfying (.inSet s))) := by
  let empty : CharSet := { ignoreCase := g.ignoreCase, negated := b.negated }
  have hopening (us : List Token) : p.takeAll g (.ofChar .lBracket '[' ::
      ((if b.negated then [.ofChar .negation '^'] else []) ++ us)) =
        (p.expect (.bracketItem empty none)).takeAll g us := by
    have hbracket : p.step g (.ofChar .lBracket '[') =
        .ok (p.expect (.bracketItem { ignoreCase := g.ignoreCase } none)) := by
      rw [step, hp]
      rfl
    rw [takeAll_cons hbracket]
    dsimp only [empty]
    cases b.negated with
    | false => rfl
    | true => exact takeAll_cons rfl
  obtain ⟨s₁, r₁, hadds₁, hbefore⟩ := takeAll_literals (p := p) (g := g) b.before empty none
  obtain ⟨s₂, r₂, hadds₂, hitems⟩ := takeAll_items (p := p) (g := g) b.items s₁ r₁
  obtain ⟨s₃, r₃, hadds₃, hbehind⟩ := takeAll_literals (p := p) (g := g) b.behind s₂ r₂
  have hadds := (hadds₁.trans hadds₂).trans hadds₃
  refine ⟨s₃, hadds.ignoreCase, hadds.negated, fun c => ?_, ?_⟩
  · have hempty : empty.lists c = false := rfl
    rw [hadds.lists, hempty, BracketList.lists_iff]
    simp
  · rw [BracketList.tokens, hopening, hbefore, hitems, hbehind]
    exact takeAll_cons rfl

end Parser

theorem accepts_inSet (s : CharSet) (tag : Nat) (input : List Char) :
    ((Pattern.satisfying (.inSet s)).matcher tag).1.accepts input ↔
      ∃ c, input = [c] ∧ s.contains c := by
  have hproper : (Pattern.satisfying (.inSet s)).Proper := .leaf trivial
  rw [Matcher.accepts_iff_of_built (Pattern.built_matcher hproper tag)]
  exact exists_congr fun c => and_comm

theorem TokenReader.readsTo_ofPattern (flags : Flags) (b : BracketList) : ∃ before,
    (ofPattern flags (String.ofList b.spell)).ReadsTo b.tokens
      (fresh (.ofFlags flags) (flags.contains .icase) ⟨before, []⟩) := by
  rw [ofPattern_ofList, ← b.spell.append_nil]
  exact readsTo_bracketList _ _ b [] []

variable {flags : Flags}

/-- A bracket expression compiles to the test whether a character is in the set that it spells. -/
theorem compile_inSet (flags : Flags) (b : BracketList) (tag : Nat) : ∃ s : CharSet,
    s.ignoreCase = flags.contains .icase ∧ s.negated = b.negated ∧
      (∀ c, s.lists c ↔ b.Lists c) ∧ compile flags (String.ofList b.spell) tag =
        .ok ((Pattern.satisfying (.inSet s)).matcher tag) := by
  obtain ⟨before, hreads⟩ := TokenReader.readsTo_ofPattern flags b
  obtain ⟨s, hignore, hnegated, hlists, htake⟩ :=
    Parser.takeAll_bracketList (g := .ofFlags flags) (p := {}) b rfl
  have hfinish : (Parser.push {} (.satisfying (.inSet s))).finish = .ok (.satisfying (.inSet s)) :=
    rfl
  exact ⟨s, hignore, hnegated, hlists, compile_of_readsTo hreads rfl htake hfinish tag⟩

/-- A bracket expression is matched by the characters that it lists or, when it is negated, by all
others. -/
theorem compile_bracketList (hcase : .icase ∉ flags) (b : BracketList) (tag : Nat) :
    ∃ m, compile flags (String.ofList b.spell) tag = .ok m ∧ ∀ input, m.1.accepts input ↔
      ∃ c, input = [c] ∧ if b.negated then ¬ b.Lists c else b.Lists c := by
  obtain ⟨s, hignore, hnegated, hlists, hcompile⟩ := compile_inSet flags b tag
  have hplain : s.ignoreCase = false := by
    rw [hignore]
    simpa using hcase
  have hcontains (c : Char) : s.contains c ↔ if b.negated then ¬ b.Lists c else b.Lists c := by
    rw [CharSet.contains, hplain, hnegated, ← hlists]
    cases b.negated <;> simp
  refine ⟨_, hcompile, fun input => ?_⟩
  rw [accepts_inSet]
  exact exists_congr fun c => and_congr_right fun _ => hcontains c

theorem accepts_outside_range :
    ∃ m, compile [.extended] "[^]a-c-]" = .ok m ∧ m.1.accepts ['d'] := by
  let a : BracketMark := .plain 'a' (by decide)
  let c : BracketMark := .plain 'c' (by decide)
  let b : BracketList := ⟨true, some .closing, [.range a c (by decide)], true, .inl rfl⟩
  have hcase : Flag.icase ∉ [Flag.extended] := by decide
  obtain ⟨m, hm, haccepts⟩ := compile_bracketList hcase b 0
  have houtside : ¬ b.Lists 'd' := by
    have hrange : ¬ ('d' ≤ 'c') := by decide
    simp [b, a, c, BracketList.Lists, BracketItem.Lists, BracketMark.char, BracketSign.char, hrange]
  exact ⟨m, hm, (haccepts _).mpr ⟨'d', rfl, houtside⟩⟩

end IncrementalRegex
