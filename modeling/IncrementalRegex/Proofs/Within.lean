import IncrementalRegex.Proofs.Tokens
import Mathlib.Tactic.ByContra
import Mathlib.Tactic.SplitIfs

namespace IncrementalRegex

namespace Cursor

variable {c c' : Cursor} {pre post : List Char}

/-- The place in a longer text. -/
def within (pre post : List Char) (c : Cursor) : Cursor := ⟨c.before ++ pre, c.rest ++ post⟩

theorem next_within {x : Char} (h : c.next? = some (x, c')) :
    (c.within pre post).next? = some (x, c'.within pre post) := by
  obtain ⟨before, rest⟩ := c
  cases rest <;> cases h
  rfl

theorem rest_of_next {x : Char} (h : c.next? = some (x, c')) : c.rest = x :: c'.rest := by
  obtain ⟨before, rest⟩ := c
  cases rest <;> cases h
  rfl

theorem next_eq_none_iff : c.next? = none ↔ c.rest = [] := by
  unfold next?
  split <;> simp [*]

theorem advance_within {n : Nat} (h : n ≤ c.rest.length) :
    (c.within pre post).advance n = (c.advance n).within pre post := by
  simp only [advance, within, List.take_append_of_le_length h, List.drop_append_of_le_length h,
    List.append_assoc]

/-- Text that does not begin with a digit of any radix. -/
def NoDigit (text : List Char) : Prop := ∀ x ∈ text.head?, digitValue? 16 x = none

theorem noDigit_nil : NoDigit [] := by
  intro x hx
  cases hx

theorem digitValue_of_le {radix : Nat} (hr : radix ≤ 16) {x : Char} (h : digitValue? 16 x = none) :
    digitValue? radix x = none := by
  simp only [digitValue?, Option.filter_eq_none_iff] at h ⊢
  intro n hn hlt
  have hlt : n < radix := by simpa using hlt
  exact h n hn (by simpa using Nat.lt_of_lt_of_le hlt hr)

theorem spanDigits_append {radix : Nat} (hr : radix ≤ 16) (hpost : NoDigit post)
    (text : List Char) :
    (spanDigits radix (text ++ post)).1 = (spanDigits radix text).1 := by
  induction text with
  | nil =>
    cases post with
    | nil => rfl
    | cons y post => simp [spanDigits, digitValue_of_le hr (hpost y rfl)]
  | cons y text ih =>
    rw [List.cons_append, spanDigits, spanDigits]
    cases digitValue? radix y with
    | none => rfl
    | some d => simp [ih]

theorem length_spanDigits_le (radix : Nat) (text : List Char) :
    (spanDigits radix text).1.length ≤ text.length := by
  induction text with
  | nil => exact Nat.le_refl 0
  | cons y text ih =>
    rw [spanDigits]
    cases digitValue? radix y with
    | none => exact Nat.zero_le _
    | some d => simpa using ih

theorem numberAfter_within {radix : Nat} (hr : radix ≤ 16) (hpost : NoDigit post) (x : Char) :
    (c.within pre post).numberAfter x radix =
      ((c.numberAfter x radix).1, (c.numberAfter x radix).2.within pre post) := by
  have hspan : (spanDigits radix (c.within pre post).rest).1 = (spanDigits radix c.rest).1 :=
    spanDigits_append hr hpost c.rest
  simp only [numberAfter, hspan]
  rw [advance_within (length_spanDigits_le radix c.rest)]

theorem digits_eq_none {n radix : Nat}
    (h : ((c.rest.take n).filterMap (digitValue? radix)).length < n) : c.digits? n radix = none :=
  if_neg (Nat.ne_of_lt h)

/-- Text that is too short for a number of so many digits is not completed by what follows. -/
theorem length_digits_lt {n radix : Nat} (hr : radix ≤ 16) (hpost : NoDigit post)
    {text : List Char} (hlt : text.length < n) :
    (((text ++ post).take n).filterMap (digitValue? radix)).length < n := by
  cases post with
  | nil =>
    have hle := List.length_filterMap_le (digitValue? radix) ((text ++ []).take n)
    rw [List.length_take, List.append_nil] at hle
    rw [List.append_nil]
    omega
  | cons y post =>
    have hy : y ∈ (text ++ y :: post).take n := by
      obtain ⟨k, hk⟩ := Nat.exists_eq_succ_of_ne_zero (Nat.sub_ne_zero_of_lt hlt)
      rw [List.take_append, hk, List.take_succ_cons]
      simp
    have hlength := List.length_filterMap_lt_length_iff_exists.mpr
      ⟨y, hy, digitValue_of_le hr (hpost y rfl)⟩
    exact Nat.lt_of_lt_of_le hlength (List.length_take_le ..)

theorem digits_within {n radix : Nat} (hr : radix ≤ 16) (hpost : NoDigit post) :
    (c.within pre post).digits? n radix =
      (c.digits? n radix).map fun p => (p.1, p.2.within pre post) := by
  by_cases hn : n ≤ c.rest.length
  · have htake : (c.within pre post).rest.take n = c.rest.take n :=
      List.take_append_of_le_length hn
    simp only [digits?, htake, advance_within hn]
    split_ifs <;> rfl
  · have hlt : c.rest.length < n := Nat.lt_of_not_le hn
    have hshort : c.digits? n radix = none := by
      apply digits_eq_none
      simpa using length_digits_lt hr noDigit_nil hlt
    have hwithin : (c.within pre post).digits? n radix = none :=
      digits_eq_none (length_digits_lt hr hpost hlt)
    rw [hwithin, hshort]
    rfl

theorem length_le_of_findDelimiter {delimiter text span : List Char}
    (h : findDelimiter delimiter text = some span) :
    span.length + delimiter.length ≤ text.length := by
  induction text generalizing span with
  | nil => cases h
  | cons y text ih =>
    rw [findDelimiter] at h
    split_ifs at h with hp
    · cases h
      have hprefix := List.isPrefixOf_iff_prefix.mp (Bool.and_eq_true_iff.mp hp).2
      simpa using hprefix.length_le
    · obtain ⟨rest, hrest, rfl⟩ := Option.map_eq_some_iff.mp h
      have := ih hrest
      simp only [List.length_cons]
      omega

theorem findDelimiter_append {delimiter text span : List Char}
    (h : findDelimiter delimiter text = some span) :
    findDelimiter delimiter (text ++ post) = some span := by
  induction text generalizing span with
  | nil => cases h
  | cons y text ih =>
    have hle := length_le_of_findDelimiter h
    have hprefix : delimiter.isPrefixOf (y :: (text ++ post)) =
        delimiter.isPrefixOf (y :: text) := by
      rw [Bool.eq_iff_iff, List.isPrefixOf_iff_prefix, List.isPrefixOf_iff_prefix]
      refine ⟨fun hp => ?_, fun hp => hp.trans (List.prefix_append (y :: text) post)⟩
      exact List.prefix_of_prefix_length_le hp (List.prefix_append (y :: text) post) (by omega)
    rw [findDelimiter] at h
    rw [List.cons_append, findDelimiter, hprefix]
    split_ifs at h ⊢ with hp
    · exact h
    · obtain ⟨rest, hrest, rfl⟩ := Option.map_eq_some_iff.mp h
      rw [ih hrest]
      rfl

theorem through_within {delimiter span : List Char} (h : c.through delimiter = (span, true, c')) :
    (c.within pre post).through delimiter = (span, true, c'.within pre post) := by
  unfold through at h
  cases found : findDelimiter delimiter c.rest with
  | none =>
    rw [found] at h
    cases h
  | some span =>
    rw [found] at h
    cases h
    have hle := length_le_of_findDelimiter found
    have hfound : findDelimiter delimiter (c.within pre post).rest = some span :=
      findDelimiter_append found
    simp only [through, hfound, advance_within hle]

end Cursor

open Cursor

namespace Lexicon

variable {l : Lexicon} {c c' : Cursor} {pre post : List Char} {t : Token}

/-- The text ends with a key, without the character that is to follow it. -/
def Dangling (l : Lexicon) (c : Cursor) : Prop := ∃ x, c.rest = [x] ∧ (l.pairs.lookup x).isSome

theorem escape_eq_some_iff {x y : Char} {kind : TokenKind} :
    l.escape? x c = some (kind, y, c') ↔
      ∃ table, l.pairs.lookup x = some table ∧ c.next? = some (y, c') ∧
        table.kind? y = some kind := by
  simp only [escape?, Option.bind_eq_bind, Option.bind_eq_some_iff, Option.pure_def]
  constructor
  · intro hm
    obtain ⟨table, hx, ⟨y', d⟩, hnext, kind', hkind, h⟩ := hm
    cases h
    exact ⟨table, hx, hnext, hkind⟩
  · intro hm
    obtain ⟨table, hx, hnext, hkind⟩ := hm
    exact ⟨table, hx, (y, c'), hnext, kind, hkind, rfl⟩

theorem escape_within_some {x y : Char} {kind : TokenKind}
    (h : l.escape? x c = some (kind, y, c')) :
    l.escape? x (c.within pre post) = some (kind, y, c'.within pre post) := by
  obtain ⟨table, hx, hnext, hkind⟩ := escape_eq_some_iff.mp h
  exact escape_eq_some_iff.mpr ⟨table, hx, next_within hnext, hkind⟩

theorem escape_within_none {x : Char} (h : l.escape? x c = none)
    (hd : c.rest ≠ [] ∨ l.pairs.lookup x = none) :
    l.escape? x (c.within pre post) = none := by
  by_contra hne
  obtain ⟨⟨kind, y, d⟩, hsome⟩ := Option.ne_none_iff_exists'.mp hne
  obtain ⟨table, hx, hnext, hkind⟩ := escape_eq_some_iff.mp hsome
  cases hc : c.next? with
  | none =>
    have hrest := next_eq_none_iff.mp hc
    simp [hx, hrest] at hd
  | some p =>
    rw [next_within hc] at hnext
    cases hnext
    rw [escape_eq_some_iff.mpr ⟨table, hx, hc, hkind⟩] at h
    contradiction

theorem tokenOf_within {kind : TokenKind} {x : Char} (hpost : NoDigit post)
    (h : l.tokenOf kind x c = .ok (t, c')) :
    l.tokenOf kind x (c.within pre post) = .ok (t, c'.within pre post) := by
  have hnumber : (c.within pre post).numberAfter x 10 =
      ((c.numberAfter x 10).1, (c.numberAfter x 10).2.within pre post) :=
    numberAfter_within (by decide) hpost x
  have hdigits (n : Nat) : (c.within pre post).digits? n 16 =
      (c.digits? n 16).map fun p => (p.1, p.2.within pre post) :=
    digits_within (Nat.le_refl 16) hpost
  rw [tokenOf_eq_ok_iff] at h ⊢
  cases h with
  | simpleBackRef => exact .simpleBackRef
  | compoundBackRef number => exact .compoundBackRef (by rw [hnumber, number])
  | count number => exact .count (by rw [hnumber, number])
  | hex digits => exact .hex (by rw [hdigits, digits, Option.map_some])
  | noHex digits => exact .noHex (by rw [hdigits, digits, Option.map_none])
  | unicode digits code => exact .unicode (by rw [hdigits, digits, Option.map_some]) code
  | noUnicode digits => exact .noUnicode (by rw [hdigits, digits, Option.map_none])
  | controlChar => exact .controlChar
  | control next letter => exact .control (next_within next) letter
  | named names closed => exact .named names (through_within closed)
  | literal ordinary => exact .literal ordinary
  | itself itself => exact .itself itself

theorem read_within (hpost : NoDigit post) (hd : ¬ l.Dangling c)
    (h : l.read c = .ok (some (t, c'))) :
    l.read (c.within pre post) = .ok (some (t, c'.within pre post)) := by
  rw [read_eq_some_iff] at h ⊢
  cases h with
  | pair next escape token =>
    exact .pair (next_within next) (escape_within_some escape) (tokenOf_within hpost token)
  | @alone x d _ kind _ next escape entry token =>
    refine .alone (next_within next) (escape_within_none escape ?_) entry
      (tokenOf_within hpost token)
    by_cases hrest : d.rest = []
    · right
      by_contra hx
      refine hd ⟨x, ?_, Option.isSome_iff_ne_none.mpr hx⟩
      rw [rest_of_next next, hrest]
    · exact .inl hrest

theorem read_of_rest_nil (h : c.rest = []) : l.read c = .ok none := by
  rw [read, next_eq_none_iff.mpr h]

theorem isSome_kind {table : KindTable} (h : table.otherwise.isSome) (x : Char) :
    (table.kind? x).isSome := by
  obtain ⟨kind, hk⟩ := Option.isSome_iff_exists.mp h
  simp only [KindTable.kind?, hk]
  cases table.entries.lookup x <;> cases (if x.isDigit then table.digit else none) <;> rfl

/-- Where every character is something, there is nothing to read only at the end. -/
theorem rest_of_read_none (total : l.alone.otherwise.isSome) (h : l.read c = .ok none) :
    c.rest = [] := by
  cases hnext : c.next? with
  | none => exact next_eq_none_iff.mp hnext
  | some p =>
    obtain ⟨x, d⟩ := p
    obtain ⟨kind, hk⟩ := Option.isSome_iff_exists.mp (isSome_kind total x)
    simp only [read, hnext, hk] at h
    split at h <;> obtain ⟨_, -, he⟩ := map_eq_ok.1 h <;> cases he

theorem read_last {x : Char} {kind : TokenKind} (hrest : c.rest = [x])
    (hk : l.alone.kind? x = some kind) :
    l.read c = (l.tokenOf kind x ⟨x :: c.before, []⟩).map some := by
  have hnext : c.next? = some (x, ⟨x :: c.before, []⟩) := by rw [next?, hrest]
  have hescape : l.escape? x ⟨x :: c.before, []⟩ = none := by
    rw [escape?]
    cases l.pairs.lookup x <;> rfl
  simp only [read, hnext, hescape, hk]

/-- The first key of some is the character or not. -/
theorem eq_or_of_lookup {x key : Char} {table : KindTable} {pairs : List (Char × KindTable)}
    (h : (List.lookup x ((key, table) :: pairs)).isSome) : x = key ∨ (pairs.lookup x).isSome := by
  rw [List.lookup_cons] at h
  by_cases hx : x = key
  · exact .inl hx
  · simp only [beq_eq_false_iff_ne.mpr hx] at h
    exact .inr h

theorem expression_dangling {d : Dialect} {ignoreCase : Bool}
    (h : (expression d ignoreCase).Dangling c) :
    (expression d ignoreCase).read c =
      .ok (some (.ofChar .trailingEscape '\\', ⟨'\\' :: c.before, []⟩)) := by
  obtain ⟨x, hrest, hx⟩ := h
  obtain rfl : x = '\\' := by simpa using eq_or_of_lookup hx
  have hk : (expression d ignoreCase).alone.kind? '\\' = some .trailingEscape := by
    cases d <;> rfl
  rw [read_last hrest hk]
  rfl

theorem brace_dangling {d : Dialect} (h : (brace d).Dangling c) :
    (brace d).read c = .ok (some (.ofChar .badBrace '\\', ⟨'\\' :: c.before, []⟩)) := by
  obtain ⟨x, hrest, hx⟩ := h
  obtain rfl : x = '\\' := by simpa using eq_or_of_lookup hx
  have hk : (brace d).alone.kind? '\\' = some .badBrace := rfl
  rw [read_last hrest hk]
  rfl

theorem bracket_dangling {d : Dialect} (h : (bracket d).Dangling c) :
    ∃ x, (bracket d).read c = .ok (some (.ofChar .bracketLiteral x, ⟨x :: c.before, []⟩)) := by
  obtain ⟨x, hrest, hx⟩ := h
  have hcases : x = '[' ∨ x = '\\' := by
    refine (eq_or_of_lookup hx).imp_right fun hx => ?_
    split_ifs at hx
    · simpa using eq_or_of_lookup hx
    · cases hx
  have hk : (bracket d).alone.kind? x = some .bracketLiteral := by
    rcases hcases with rfl | rfl <;> rfl
  refine ⟨x, ?_⟩
  rw [read_last hrest hk]
  rfl

end Lexicon

namespace Brace

variable {d : Dialect} {c c' : Cursor} {pre post : List Char}

theorem next_within (hpost : NoDigit post) {t : Token} (h : next d c = .ok (t, c'))
    (hk : t.kind ≠ .badBrace) : next d (c.within pre post) = .ok (t, c'.within pre post) := by
  obtain ⟨_ | p, hread, h⟩ := bind_eq_ok.1 h <;> cases h
  have hd : ¬ (Lexicon.brace d).Dangling c := by
    intro hd
    rw [Lexicon.brace_dangling hd] at hread
    cases hread
    exact hk rfl
  refine bind_eq_ok.2 ⟨_, Lexicon.read_within hpost hd hread, rfl⟩

theorem read_within (hpost : NoDigit post) {b : Bounds} (h : read d c = .ok (some (b, c'))) :
    read d (c.within pre post) = .ok (some (b, c'.within pre post)) := by
  have next {t : Token} {c c' : Cursor} (h : Brace.next d c = .ok (t, c'))
      (hk : t.kind ≠ .badBrace) :
      Brace.next d (c.within pre post) = .ok (t, c'.within pre post) := next_within hpost h hk
  rw [read_eq_some_iff] at h ⊢
  cases h with
  | exactly count written close closes bounds =>
    exact .exactly (next count (by simp [written.1])) written (next close (by simp [closes]))
      closes bounds
  | atLeast lower written comma separates close closes bounds =>
    exact .atLeast (next lower (by simp [written.1])) written (next comma (by simp [separates]))
      separates (next close (by simp [closes])) closes bounds
  | between lower written comma separates upper writtenUpper close closes bounds =>
    exact .between (next lower (by simp [written.1])) written (next comma (by simp [separates]))
      separates (next upper (by simp [writtenUpper.1])) writtenUpper
      (next close (by simp [closes])) closes bounds

end Brace

/-- Text that continues nothing that stands before it in an expression. -/
structure Boundary (l : Lexicon) (post : List Char) : Prop where
  digit : NoDigit post
  /-- It does not say what kind of group an opening parenthesis before it opens. -/
  opener : ∀ x ∈ post.head?, KindTable.groupOpener.kind? x = none
  /-- It is neither an ordinary character nor a repetition. -/
  sign : post = [] ∨ ∀ before, ∃ t c, l.read ⟨before, post⟩ = .ok (some (t, c)) ∧
    t.hasKind .literal = false ∧ t.hasKind .replication = false ∧ t.hasKind .lBrace = false

theorem boundary_nil (l : Lexicon) : Boundary l [] where
  digit := noDigit_nil
  opener := by
    intro x hx
    cases hx
  sign := .inl rfl

namespace ExpressionReader

variable {r r' : ExpressionReader} {c c' : Cursor} {pre post : List Char} {t : Token}

theorem bounds_within (hpost : NoDigit post) {d : Dialect} {b : Option (Bounds × Cursor)}
    (h : bounds? d t c = .ok b) :
    bounds? d t (c.within pre post) = .ok (b.map fun p => (p.1, p.2.within pre post)) := by
  rw [bounds_eq_ok_iff] at h ⊢
  cases h with
  | sign kind => exact .sign kind
  | brace kind read => exact .brace kind (Brace.read_within hpost read)
  | none replication brace => exact .none replication brace

variable {l : Lexicon}

theorem ordinaryRun_of_end (h : l.read c = .ok none) : ordinaryRun l c = .ok ([], false, c) := by
  rw [ordinaryRun.eq_def]
  split <;> simp_all

theorem ordinaryRun_of_sign (h : l.read c = .ok (some (t, c'))) (ht : t.hasKind .literal = false) :
    ordinaryRun l c = .ok ([], t.hasKind .replication || t.hasKind .lBrace, c) := by
  rw [ordinaryRun.eq_def]
  split <;> simp_all

theorem ordinaryRun_of_literal (h : l.read c = .ok (some (t, c'))) (ht : t.hasKind .literal)
    {run : List Char} {repeated : Bool} {e : Cursor}
    (hrun : ordinaryRun l c' = .ok (run, repeated, e)) :
    ordinaryRun l c = .ok (t.char :: run, repeated, e) := by
  rw [ordinaryRun.eq_def]
  split <;> simp_all

theorem ordinaryRun_within (total : l.alone.otherwise.isSome)
    (dangling : ∀ {c t c'}, l.Dangling c → l.read c = .ok (some (t, c')) → t.kind = .trailingEscape)
    (hpost : Boundary l post) {run : List Char} {repeated : Bool}
    (h : ordinaryRun l c = .ok (run, repeated, c'))
    (hd : repeated ∨ ¬ l.Dangling c') :
    ordinaryRun l (c.within pre post) = .ok (run, repeated, c'.within pre post) := by
  fun_induction ordinaryRun l c generalizing run repeated c' with
  | case1 | case3 => cases h
  | case2 c hread =>
    cases h
    have hrest := Lexicon.rest_of_read_none total hread
    rcases hpost.sign with rfl | hsign
    · exact ordinaryRun_of_end (Lexicon.read_of_rest_nil (by simp [within, hrest]))
    · obtain ⟨t, e, hread, hl, hr, hb⟩ := hsign (c.before ++ pre)
      have hwithin : c.within pre post = ⟨c.before ++ pre, post⟩ := by simp [within, hrest]
      rw [hwithin, ordinaryRun_of_sign hread hl, hr, hb]
      rfl
  | case4 c t next hread literal _ _ _ hrun ih =>
    cases h
    have hc : ¬ l.Dangling c := by
      intro hc
      have := dangling hc hread
      simp [Token.hasKind, this] at literal
    exact ordinaryRun_of_literal (Lexicon.read_within hpost.digit hc hread) literal (ih hrun hd)
  | case5 c t next hread literal =>
    have literal := eq_false_of_ne_true literal
    cases h
    refine ordinaryRun_of_sign (Lexicon.read_within hpost.digit ?_ hread) literal
    rcases hd with hd | hd
    · intro hc
      have := dangling hc hread
      simp [Token.hasKind, this] at hd
    · exact hd

theorem total_lexicon (r : ExpressionReader) : r.lexicon.alone.otherwise.isSome := by
  obtain ⟨d, ignoreCase, pending⟩ := r
  cases d <;> rfl

theorem kind_of_dangling (h : r.lexicon.Dangling c)
    (hread : r.lexicon.read c = .ok (some (t, c'))) :
    t.kind = .trailingEscape := by
  rw [lexicon, Lexicon.expression_dangling h] at hread
  cases hread
  rfl

theorem read_within (hpost : Boundary r.lexicon post) (h : r.read c = .ok (some (t, r', c')))
    (hk : t.kind ≠ .trailingEscape)
    (hd : t.kind = .stringLiteral → r'.pending = {} → ¬ r.lexicon.Dangling c') :
    r.read (c.within pre post) = .ok (some (t, r', c'.within pre post)) := by
  have lexicon {u : Token} {e : Cursor} (first : r.lexicon.read c = .ok (some (u, e)))
      (hk : u.kind ≠ .trailingEscape) :
      r.lexicon.read (c.within pre post) = .ok (some (u, e.within pre post)) :=
    Lexicon.read_within hpost.digit (fun hd => hk (kind_of_dangling hd first)) first
  have literal {u : Token} (h : u.hasKind .literal) : u.kind ≠ .trailingEscape := by
    rw [eq_of_beq h]
    simp
  have run {e e' : Cursor} {run : List Char} {repeated : Bool}
      (later : ordinaryRun r.lexicon e = .ok (run, repeated, e'))
      (hd : repeated ∨ ¬ r.lexicon.Dangling e') :
      ordinaryRun r.lexicon (e.within pre post) = .ok (run, repeated, e'.within pre post) :=
    ordinaryRun_within r.total_lexicon kind_of_dangling hpost later hd
  rw [read_eq_some_iff] at h ⊢
  cases h with
  | known hp => exact .known hp
  | single empty first hl later =>
    exact .single empty (lexicon first (literal hl)) hl (run later (.inl rfl))
  | cut empty first hl later =>
    exact .cut empty (lexicon first (literal hl)) hl (run later (.inl rfl))
  | whole empty first hl later =>
    exact .whole empty (lexicon first (literal hl)) hl (run later (.inr (hd rfl empty)))
  | sign empty first hl bounds =>
    exact .sign empty (lexicon first hk) hl (bounds_within hpost.digit bounds)
  | @repetition u _ _ _ empty first hl bounds =>
    have hk : u.kind ≠ .trailingEscape := by
      intro hk
      simp [bounds?, hk] at bounds
    exact .repetition empty (lexicon first hk) hl (bounds_within hpost.digit bounds)

/-- Nothing is left to read only at the end. -/
theorem rest_of_read_none (h : r.read c = .ok none) : r.pending = {} ∧ c.rest = [] := by
  unfold read at h
  cases hp : r.pending.pop? with
  | some p =>
    rw [hp] at h
    cases h
  | none =>
    rw [hp] at h
    refine ⟨Queue.pop_eq_none_iff.mp hp, ?_⟩
    obtain ⟨_ | ⟨u, e⟩, first, h⟩ := bind_eq_ok.1 h
    · exact Lexicon.rest_of_read_none r.total_lexicon first
    · dsimp only at h
      split at h
      · obtain ⟨⟨run, repeated, e'⟩, -, h⟩ := bind_eq_ok.1 h
        dsimp only at h
        split at h
        · split at h <;> cases h
        · cases h
      · obtain ⟨_ | ⟨b, e'⟩, -, h⟩ := bind_eq_ok.1 h <;> cases h

end ExpressionReader

namespace BracketPlace

theorem meaning_of_literal {p : BracketPlace} {t : Token} (h : t.kind = .bracketLiteral) :
    p.meaning t = t := by
  unfold meaning
  split <;> simp_all

end BracketPlace

namespace BracketReader

variable {d : Dialect} {r r' : BracketReader} {c c' : Cursor} {pre post : List Char} {t : Token}

theorem literal_of_dangling (h : (Lexicon.bracket d).Dangling c)
    (hread : (Lexicon.bracket d).read c = .ok (some (t, c'))) :
    t.kind = .bracketLiteral ∧ c'.rest = [] := by
  obtain ⟨x, hx⟩ := Lexicon.bracket_dangling h
  rw [hx] at hread
  cases hread
  exact ⟨rfl, rfl⟩

theorem raw_within (hpost : NoDigit post) {ahead : Queue Token}
    (h : r.raw d c = .ok (some (t, ahead, c')))
    (hd : t.kind ≠ .bracketLiteral ∨ c'.rest ≠ []) :
    r.raw d (c.within pre post) = .ok (some (t, ahead, c'.within pre post)) := by
  rw [raw_eq_some_iff] at h ⊢
  rcases h with ⟨hp, rfl⟩ | ⟨empty, rfl, hread⟩
  · exact .inl ⟨hp, rfl⟩
  · refine .inr ⟨empty, rfl, Lexicon.read_within hpost (fun hdangling => ?_) hread⟩
    obtain ⟨hk, hrest⟩ := literal_of_dangling hdangling hread
    simp [hk, hrest] at hd

theorem ahead_of_raw {ahead : Queue Token} (h : r.raw d c = .ok (some (t, ahead, c')))
    (hsize : r.ahead.size ≤ 1) : ahead = {} := by
  rcases raw_eq_some_iff.mp h with ⟨hp, -⟩ | ⟨-, rfl, -⟩
  · rw [Queue.size, hp] at hsize
    obtain ⟨items⟩ := ahead
    simpa using hsize
  · rfl

/-- A bracket that is not closed by the tokens known so far needs what follows. -/
def Closing (r : BracketReader) : Prop := ∃ u ∈ r.ahead.items, u.kind = .rBracket

theorem read_within (hpost : NoDigit post) (hsize : r.ahead.size ≤ 1)
    (h : r.read d c = .ok (some (t, r', c')))
    (hd : c'.rest ≠ [] ∨ t.kind = .rBracket ∨ r'.Closing) :
    r.read d (c.within pre post) = .ok (some (t, r', c'.within pre post)) := by
  have hraw {u : Token} (kind : (r.place.meaning u).hasKind .rangeDash) :
      u.kind ≠ .bracketLiteral := by
    intro hu
    rw [BracketPlace.meaning_of_literal hu, Token.hasKind, hu] at kind
    cases kind
  rw [read_eq_some_iff] at h ⊢
  cases h with
  | @plain u _ _ raw kind =>
    refine .plain (raw_within hpost raw ?_) kind
    by_cases hu : u.kind = .bracketLiteral
    · right
      rw [BracketPlace.meaning_of_literal hu, hu, Closing, ahead_of_raw raw hsize] at hd
      simpa using hd
    · exact .inl hu
  | lastDash raw kind next =>
    have hrest := Lexicon.rest_of_read_none rfl next
    rw [eq_of_beq kind, Closing, ahead_of_raw raw hsize] at hd
    simp [hrest] at hd
  | dash raw kind next closing =>
    refine .dash (raw_within hpost raw (.inl (hraw kind))) kind
      (Lexicon.read_within hpost (fun hdangling => ?_) next) closing
    obtain ⟨hv, hrest⟩ := literal_of_dangling hdangling next
    rw [eq_of_beq kind, Closing, ahead_of_raw raw hsize] at hd
    simp [hrest, Queue.push, hv] at hd
  | literalDash raw kind next closing =>
    refine .literalDash (raw_within hpost raw (.inl (hraw kind))) kind
      (Lexicon.read_within hpost (fun hdangling => ?_) next) closing
    have hv := (literal_of_dangling hdangling next).1
    rw [Token.hasKind, hv] at closing
    cases closing

end BracketReader
end IncrementalRegex
