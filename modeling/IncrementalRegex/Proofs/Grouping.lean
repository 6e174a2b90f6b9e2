import IncrementalRegex.Proofs.Alike
import IncrementalRegex.Proofs.Braces
import IncrementalRegex.Proofs.Kinds

namespace IncrementalRegex

open Matcher

/-- What may open a group.  In one dialect a group can be said to be no subexpression. -/
inductive Dialect.Opens (d : Dialect) : String → Prop where
  | plain : Opens d (d.escape ++ "(")
  | unnumbered (h : d = .ecmascript) : Opens d "(?:"

def Dialect.closing (d : Dialect) : String := d.escape ++ ")"

/-- The tokens of what opens a group. -/
def Opening (ts : List Token) : Prop :=
  ts = [.ofChar .lParen '('] ∨ ts = [.ofChar .lParen '(', .ofChar .noSubexp ':']

/-- The token of what closes a group. -/
def closingToken : Token := .ofChar .rParen ')'

variable {d : Dialect} {ignoreCase : Bool} {g : Grammar}

/-- The text that closes a group continues nothing that is read in it. -/
theorem boundary_closing (d : Dialect) (ignoreCase : Bool) (rest : List Char) :
    Boundary (.expression d ignoreCase) (d.escape.toList ++ ')' :: rest) where
  digit := by
    intro x hx
    cases d <;> cases hx <;> rfl
  opener := by
    intro x hx
    cases d <;> cases hx <;> rfl
  sign := by
    right
    intro before
    obtain ⟨before', h⟩ := Lexicon.read_sign d ignoreCase
      (by simp : (')', TokenKind.rParen) ∈ _) before rest
    exact ⟨_, _, h, rfl, rfl, rfl⟩

namespace TokenReader

theorem read_parenthesis (d : Dialect) (ignoreCase : Bool) {x : Char} {kind : TokenKind}
    (h : (x, kind) ∈ [('(', .lParen), (')', .rParen)]) (before rest : List Char) : ∃ before',
    ExpressionReader.read { dialect := d, ignoreCase := ignoreCase }
        ⟨before, d.escape.toList ++ x :: rest⟩ =
      .ok (some (.ofChar kind x, { dialect := d, ignoreCase := ignoreCase }, ⟨before', rest⟩)) := by
  obtain ⟨before', hread⟩ := Lexicon.read_sign d ignoreCase
    (List.mem_append_left [('\x7b', .lBrace)] h) before rest
  refine ⟨before', ExpressionReader.read_eq_some_iff.mpr (.sign rfl hread ?_ ?_)⟩ <;>
    simp only [List.mem_cons, List.not_mem_nil, or_false, Prod.mk.injEq] at h <;>
    rcases h with ⟨rfl, rfl⟩ | ⟨rfl, rfl⟩ <;> rfl

theorem read_open (d : Dialect) (ignoreCase : Bool) (before rest : List Char) : ∃ before',
    (fresh d ignoreCase ⟨before, d.escape.toList ++ '(' :: rest⟩).read =
      .ok (some (.ofChar .lParen '(',
        ((fresh d ignoreCase ⟨before', rest⟩).inGroups 1).opened)) := by
  obtain ⟨before', hread⟩ := read_parenthesis d ignoreCase
    (by simp : ('(', TokenKind.lParen) ∈ _) before rest
  exact ⟨before', read_eq_some_iff.mpr
    ⟨_, readInContext_eq_some_iff.mpr (.expression rfl hread), rfl, rfl⟩⟩

theorem read_close (d : Dialect) (ignoreCase : Bool) (before rest : List Char) : ∃ before',
    ((fresh d ignoreCase ⟨before, d.escape.toList ++ ')' :: rest⟩).inGroups 1).read =
      .ok (some (closingToken, fresh d ignoreCase ⟨before', rest⟩)) := by
  obtain ⟨before', hread⟩ := read_parenthesis d ignoreCase
    (by simp : (')', TokenKind.rParen) ∈ _) before rest
  exact ⟨before', read_eq_some_iff.mpr
    ⟨_, readInContext_eq_some_iff.mpr (.expression rfl hread), rfl, rfl⟩⟩

theorem start_within (text pre post : List Char) :
    (start d ignoreCase text).within pre post = fresh d ignoreCase ⟨pre, text ++ post⟩ := by
  simp [within, start, fresh, Cursor.within, Cursor.start]

/-- A pattern that can be compiled says nothing of the kind of a group that it stands in. -/
theorem group_none_of_spells {text : List Char} {pattern : Pattern} (hd : g.dialect = d)
    (h : Spells g (start d ignoreCase text) {} pattern) :
    (Lexicon.group d).read (.start text) = .ok none := by
  by_cases he : d = .ecmascript
  · subst he
    cases text with
    | nil => rfl
    | cons x text =>
      by_cases hx : x = '?'
      · subst hx
        cases h with
        | done read => cases read
        | step read take =>
          cases read
          rw [Parser.step, Parser.element] at take
          dsimp only at take
          rw [Parser.repetition, hd] at take
          cases take
      · have hlookup : (Lexicon.group .ecmascript).pairs.lookup x = none := by
          simp [Lexicon.group, List.lookup_cons, beq_eq_false_iff_ne.mpr hx]
        simp [Lexicon.read, Cursor.next?, Cursor.start, Lexicon.escape?, hlookup,
          Lexicon.group_alone]
  · have hpairs : (Lexicon.group d).pairs = [] := if_neg he
    cases text with
    | nil => rfl
    | cons x text =>
      simp [Lexicon.read, Cursor.next?, Cursor.start, Lexicon.escape?, hpairs, Lexicon.group_alone]

theorem group_none_of_closing (before rest : List Char) :
    (Lexicon.group d).read ⟨before, d.escape.toList ++ ')' :: rest⟩ = .ok none := by
  cases d <;> rfl

/-- The tokens of a pattern are read in a group as they are alone. -/
theorem readsTo_group {opening : String} {text : List Char} {pattern : Pattern}
    (ho : d.Opens opening) (hd : g.dialect = d)
    (h : Spells g (start d ignoreCase text) {} pattern) (before rest : List Char) :
    ∃ ots before', Opening ots ∧
      (fresh d ignoreCase
        ⟨before, opening.toList ++ (text ++ (d.escape.toList ++ ')' :: rest))⟩).ReadsTo
        (ots ++ ((start d ignoreCase text).tokens ++ [closingToken]))
        (fresh d ignoreCase ⟨before', rest⟩) := by
  let post := d.escape.toList ++ ')' :: rest
  have hinside (before : List Char) : ∃ before',
      ((fresh d ignoreCase ⟨before, text ++ post⟩).inGroups 1).ReadsTo
        ((start d ignoreCase text).tokens ++ [closingToken])
        (fresh d ignoreCase ⟨before', rest⟩) := by
    obtain ⟨b₁, hreads⟩ :=
      h.readsTo_within (agrees_start text) (boundary_closing d ignoreCase rest) before
    obtain ⟨b₂, hclose⟩ := read_close d ignoreCase b₁ rest
    rw [start_within] at hreads
    exact ⟨b₂, hreads.inGroups.trans (.step hclose (.refl _))⟩
  cases ho with
  | plain =>
    obtain ⟨b₁, hopen⟩ := read_open d ignoreCase before (text ++ post)
    obtain ⟨b₂, hreads⟩ := hinside b₁
    have hnone : (Lexicon.group d).read ⟨b₁, text ++ post⟩ = .ok none := by
      by_cases ht : text = []
      · rw [ht]
        exact group_none_of_closing b₁ rest
      · have hpost := (boundary_closing d ignoreCase rest).opener
        have hwithin : (Lexicon.group d).read ((Cursor.start text).within b₁ post) = .ok none :=
          Lexicon.group_read_none hpost ht (group_none_of_spells hd h)
        simpa [Cursor.within, Cursor.start] using hwithin
    refine ⟨_, b₂, .inl rfl, ?_⟩
    rw [String.toList_append, List.append_assoc]
    exact .step hopen (hreads.opened rfl hnone (by simp))
  | unnumbered hd =>
    subst hd
    obtain ⟨b₂, hreads⟩ := hinside (':' :: '?' :: '(' :: before)
    exact ⟨_, b₂, .inr rfl, .step rfl (.step rfl hreads)⟩

end TokenReader

namespace Parser

variable {p : Parser} {t : Token} {ts us ots : List Token} {es : List Pattern} {pattern : Pattern}

/-- The parser behind the elements `es` of the first branch, the latest first. -/
def behind (es : List Pattern) : Parser := { group := { branch := es } }

theorem takeAll_groupStart (he : p.expecting = .element) (hne : ts ≠ [])
    (hk : ∀ t ∈ ts.head?, t.kind.qualifiesGroup = false) :
    (p.expect .groupStart).takeAll g ts = p.takeAll g ts := by
  cases ts with
  | nil => contradiction
  | cons t ts => rw [takeAll, takeAll, step_groupStart he (hk t rfl)]

/-- No pattern begins with what says of what kind a group is. -/
theorem kind_of_takeAll {q : Parser} (h : takeAll g {} ts = .ok q) :
    ∀ t ∈ (ts ++ [closingToken]).head?, t.kind.qualifiesGroup = false := by
  intro t ht
  cases ts with
  | nil =>
    cases ht
    rfl
  | cons u ts =>
    cases ht
    cases hs : step g {} t with
    | error f =>
      rw [takeAll_of_error hs] at h
      cases h
    | ok p' =>
      cases takes_of_step hs with
      | element _ h => cases h with
        | push leaf kind => rcases kind with hk | hk | hk | hk <;> rw [hk] <;> rfl
        | dollar hk | openGroup hk | closeGroup hk | openBracket hk | alternation hk
        | repetition hk =>
          rw [hk]
          rfl
      | plainGroup context | afterDollar context | star context | repeated context
      | closeBracket context | inBracket context => cases context

/-- Whatever opens a group, its pattern is taken with one more group around it. -/
theorem takeAll_opening (ho : Opening ots) {q : Parser} (h : takeAll g {} ts = .ok q)
    (es : List Pattern) (us : List Token) :
    (behind es).takeAll g (ots ++ (ts ++ closingToken :: us)) =
      (enclose [{ branch := es }] {}).takeAll g (ts ++ closingToken :: us) := by
  let inner : Parser := enclose [{ branch := es }] {}
  have hopen : (behind es).step g (.ofChar .lParen '(') = .ok (inner.expect .groupStart) := rfl
  rcases ho with rfl | rfl
  · rw [List.singleton_append, takeAll_cons hopen]
    refine takeAll_groupStart rfl (by simp) ?_
    have hkind := kind_of_takeAll h
    intro t ht
    apply hkind t
    cases ts <;> exact ht
  · have hplain : (inner.expect .groupStart).step g (.ofChar .noSubexp ':') = .ok inner := rfl
    rw [List.cons_append, takeAll_cons hopen, List.singleton_append, takeAll_cons hplain]

/-- A group is one element of the branch it stands in. -/
theorem takeAll_group (ho : Opening ots) {q : Parser} (h : takeAll g {} ts = .ok q)
    (hq : q.finish = .ok pattern) (es : List Pattern) (us : List Token) :
    (behind es).takeAll g (ots ++ (ts ++ closingToken :: us)) =
        (behind (pattern :: es)).takeAll g us ∨
      (behind es).takeAll g (ots ++ (ts ++ closingToken :: us)) = .error .nestedTooDeeply := by
  rw [takeAll_opening ho h]
  have hfits : Fits _ q (takeAll g (enclose [{ branch := es }] {}) ts) := takeAll_fits h
  generalize hx : takeAll g (enclose [{ branch := es }] {}) ts = x at hfits
  cases hfits with
  | tooDeep =>
    right
    rw [takeAll_append, hx]
    rfl
  | ok =>
    obtain ⟨hexpecting, houter, rfl⟩ := finish_eq_ok_iff.mp hq
    left
    rw [takeAll_append, hx]
    refine takeAll_cons ?_
    have hstep : (q.enclose [{ branch := es }]).step g closingToken =
        (q.enclose [{ branch := es }]).closeGroup := by
      rw [step, enclose, hexpecting]
      rfl
    rw [hstep, closeGroup, enclose, houter]
    rfl

/-- A repetition applies to the element before it. -/
theorem takeAll_repetition {bs : List Pattern} {outer : List Group} {stacked : Nat} {e : Pattern}
    {b : Bounds} {x : Char} (h : outer.length + (stacked + 1) ≤ nestingLimit) :
    takeAll g ⟨⟨bs, e :: es⟩, outer, stacked, .element⟩ (b.tokens x ++ us) =
      takeAll g ⟨⟨bs, .repeated e b :: es⟩, outer, stacked + 1, .element⟩ us := by
  let p : Parser := ⟨⟨bs, e :: es⟩, outer, stacked, .element⟩
  have hlower : p.step g ⟨.repLower, x, b.lower, []⟩ = .ok (p.expect (.upperBound b.lower)) :=
    if_neg (Nat.not_lt.mpr h)
  have hbounds : Bounds.between? b.lower b.upper = some b :=
    dif_pos ⟨b.lower_le_upper, b.upper_le_unbounded⟩
  have hupper : (p.expect (.upperBound b.lower)).step g (.ofCount .repUpper b.upper) =
      .ok ⟨⟨bs, .repeated e b :: es⟩, outer, stacked + 1, .element⟩ := by
    simp only [step, expect, upperBound, Token.ofCount, if_true, hbounds]
    rfl
  rw [Bounds.tokens, List.cons_append, List.singleton_append, takeAll_cons hlower,
    takeAll_cons hupper]

theorem takeAll_bounds {b : Bounds} {x : Char} {e : Pattern} :
    (behind (e :: es)).takeAll g (b.tokens x) =
      .ok { behind (.repeated e b :: es) with stacked := 1 } := by
  rw [← List.append_nil (b.tokens x)]
  exact takeAll_repetition (by decide)

end Parser

variable {flags : Flags}

/-- What tokens from the start to the end of a text come to is what the text compiles to. -/
theorem compile_kind_of_tokens {text : String} {ts : List Token} {before : List Char}
    (h : (TokenReader.ofPattern flags text).ReadsTo ts (.fresh d ignoreCase ⟨before, []⟩))
    (tag : Nat) : (compile flags text tag).mapError (·.kind) =
      (outcome (.ofFlags flags) ts none).map (·.matcher tag) := by
  have hend : (TokenReader.fresh d ignoreCase ⟨before, []⟩).read = .ok none := rfl
  have htokens : (TokenReader.ofPattern flags text).tokens = ts := by
    rw [h.tokens_eq, TokenReader.tokens, TokenReader.stream_of_end hend]
    simp
  have hfault : (TokenStream.ofPattern flags text).fault = none := by
    rw [TokenStream.ofPattern, h.fault_eq, TokenReader.stream_of_end hend]
  rw [compile_kind, htokens, hfault]
  rfl

/-- The text compiles to what reports the states of `m`, unless it is nested too deeply. -/
def CompilesAs (flags : Flags) (text : String) (tag : Nat) (m : Matcher Char CharTest) : Prop :=
  (∃ e, compile flags text tag = .error e ∧ e.kind = .nesting) ∨
    ∃ c, compile flags text tag = .ok c ∧ c.1.start.state = m.start.state ∧
      ∀ input, c.1.start.states input = m.start.states input

theorem compilesAs_of_tokens {text : String} {ts : List Token} {before : List Char}
    {pattern : Pattern} {m : Matcher Char CharTest}
    (h : (TokenReader.ofPattern flags text).ReadsTo ts (.fresh d ignoreCase ⟨before, []⟩))
    (htake : (∃ p, Parser.takeAll (.ofFlags flags) {} ts = .ok p ∧ p.finish = .ok pattern) ∨
      Parser.takeAll (.ofFlags flags) {} ts = .error .nestedTooDeeply)
    {tag : Nat} (hm : Alike (pattern.matcher tag).1 m) : CompilesAs flags text tag m := by
  have hkind := compile_kind_of_tokens h tag
  rcases htake with ⟨p, htake, hfinish⟩ | htake
  · have houtcome : outcome (.ofFlags flags) ts none = .ok pattern := by
      rw [outcome, htake]
      exact mapError_eq_ok.mpr hfinish
    rw [houtcome] at hkind
    exact .inr ⟨_, mapError_eq_ok.mp hkind, hm.state_eq, hm.states_eq⟩
  · have houtcome : outcome (.ofFlags flags) ts none = .error .nesting := by
      rw [outcome, htake]
      rfl
    rw [houtcome] at hkind
    exact .inl (mapError_eq_error.mp hkind)

/-- Wherever it stands in a branch, the text is read and taken as one element. -/
def IsElement (flags : Flags) (text : String) (pattern : Pattern) : Prop :=
  ∀ before rest, ∃ ts before',
    (TokenReader.fresh (.ofFlags flags) (flags.contains .icase)
      ⟨before, text.toList ++ rest⟩).ReadsTo ts
      (.fresh (.ofFlags flags) (flags.contains .icase) ⟨before', rest⟩) ∧
    ∀ es us, (Parser.behind es).takeAll (.ofFlags flags) (ts ++ us) =
        (Parser.behind (pattern :: es)).takeAll (.ofFlags flags) us ∨
      (Parser.behind es).takeAll (.ofFlags flags) (ts ++ us) = .error .nestedTooDeeply

theorem Dialect.toList_group (d : Dialect) (opening text : String) (rest : List Char) :
    (opening ++ text ++ d.closing).toList ++ rest =
      opening.toList ++ (text.toList ++ (d.escape.toList ++ ')' :: rest)) := by
  simp [closing]

theorem isElement_group {opening text : String} {pattern : Pattern}
    (ho : (Dialect.ofFlags flags).Opens opening)
    (h : Spells (.ofFlags flags) (.ofPattern flags text) {} pattern) :
    IsElement flags (opening ++ text ++ (Dialect.ofFlags flags).closing) pattern := by
  intro before rest
  obtain ⟨last, htake, -, hfinish⟩ := spells_iff_takeAll.mp h
  obtain ⟨ots, before', hots, hreads⟩ := TokenReader.readsTo_group ho rfl h before rest
  refine ⟨ots ++ ((TokenReader.ofPattern flags text).tokens ++ [closingToken]), before', ?_, ?_⟩
  · rw [Dialect.toList_group]
    exact hreads
  · intro es us
    simpa using Parser.takeAll_group hots htake hfinish es us

variable {text₁ text₂ : String} {pattern₁ pattern₂ : Pattern} {m : Matcher Char CharTest}
  {tag : Nat}

theorem IsElement.compilesAs (h : IsElement flags text₁ pattern₁)
    (hm : Alike (pattern₁.matcher tag).1 m) : CompilesAs flags text₁ tag m := by
  obtain ⟨ts, before, hreads, htake⟩ := h [] []
  rw [List.append_nil] at hreads
  refine compilesAs_of_tokens hreads ?_ hm
  have hts := htake [] []
  rw [List.append_nil] at hts
  exact hts.imp_left fun hts => ⟨_, hts, rfl⟩

theorem IsElement.compilesAs_append (h₁ : IsElement flags text₁ pattern₁)
    (h₂ : IsElement flags text₂ pattern₂)
    (hm : Alike ((Pattern.concat [pattern₁, pattern₂]).matcher tag).1 m) :
    CompilesAs flags (text₁ ++ text₂) tag m := by
  obtain ⟨ts₁, b₁, hreads₁, htake₁⟩ := h₁ [] text₂.toList
  obtain ⟨ts₂, b₂, hreads₂, htake₂⟩ := h₂ b₁ []
  rw [List.append_nil] at hreads₂
  rw [← String.toList_append] at hreads₁
  refine compilesAs_of_tokens (hreads₁.trans hreads₂) ?_ hm
  rcases htake₁ [] ts₂ with hts₁ | hts₁
  · have hts₂ := htake₂ [pattern₁] []
    rw [List.append_nil, ← hts₁] at hts₂
    exact hts₂.imp_left fun hts => ⟨_, hts, rfl⟩
  · exact .inr hts₁

theorem IsElement.compilesAs_braced (h : IsElement flags text₁ pattern₁) {counts : String}
    {b : Bounds}
    (hb : ∀ before, ∃ before', Brace.read (.ofFlags flags) ⟨before, counts.toList ++
      ((Dialect.ofFlags flags).escape.toList ++ ['\x7d'] ++ [])⟩ = .ok (some (b, ⟨before', []⟩)))
    (hm : Alike ((Pattern.repeated pattern₁ b).matcher tag).1 m) :
    CompilesAs flags (text₁ ++ (Dialect.ofFlags flags).braced counts) tag m := by
  obtain ⟨ts, b₁, hreads, htake⟩ := h [] ((Dialect.ofFlags flags).braced counts).toList
  obtain ⟨b₂, hbraced⟩ :=
    TokenReader.readsTo_quantifier (quantifies_braced (flags.contains .icase) hb) b₁
  rw [List.append_nil] at hbraced
  rw [← String.toList_append] at hreads
  refine compilesAs_of_tokens (hreads.trans hbraced) ?_ hm
  rcases htake [] (b.tokens '\x7b') with hts | hts
  · exact .inl ⟨_, hts.trans Parser.takeAll_bounds, rfl⟩
  · exact .inr hts

/-- It makes no difference to a pattern what opens the group it stands in. -/
theorem compile_of_opens {opening opening' text : String} {pattern : Pattern}
    (ho : (Dialect.ofFlags flags).Opens opening) (ho' : (Dialect.ofFlags flags).Opens opening')
    (h : Spells (.ofFlags flags) (.ofPattern flags text) {} pattern) (tag : Nat) :
    let closing := (Dialect.ofFlags flags).closing
    (compile flags (opening ++ text ++ closing) tag).mapError (·.kind) =
      (compile flags (opening' ++ text ++ closing) tag).mapError (·.kind) := by
  intro closing
  obtain ⟨last, htake, -, -⟩ := spells_iff_takeAll.mp h
  have hkind {o : String} (ho : (Dialect.ofFlags flags).Opens o) :
      (compile flags (o ++ text ++ (Dialect.ofFlags flags).closing) tag).mapError (·.kind) =
        (((Parser.enclose [{}] {}).takeAll (.ofFlags flags)
            ((TokenReader.ofPattern flags text).tokens ++ [closingToken])).mapError Fault.kind >>=
          fun p => p.finish.mapError Fault.kind).map fun p => p.matcher tag := by
    obtain ⟨ots, before, hots, hreads⟩ := TokenReader.readsTo_group ho rfl h [] []
    rw [← Dialect.toList_group, List.append_nil] at hreads
    rw [compile_kind_of_tokens hreads tag, outcome, ← Parser.takeAll_opening hots htake [] []]
    rfl
  rw [hkind ho, hkind ho']

/-- Grouping, putting together and repeating patterns is grouping, putting together and repeating
what they compile to, unless they are nested too deeply then. -/
theorem compile_grouped {tag₁ tag₂ : Nat} {m₁ m₂ : Matcher Char CharTest × Nat}
    (h₁ : compile flags text₁ tag₁ = .ok m₁) (h₂ : compile flags text₂ tag₂ = .ok m₂) {b : Bounds}
    (hb : b.upper ≤ Brace.largestWritten) {opening₁ opening₂ : String}
    (ho₁ : (Dialect.ofFlags flags).Opens opening₁) (ho₂ : (Dialect.ofFlags flags).Opens opening₂)
    (tag : Nat) :
    let d := Dialect.ofFlags flags
    let group₁ := opening₁ ++ text₁ ++ d.closing
    let group₂ := opening₂ ++ text₂ ++ d.closing
    CompilesAs flags group₁ tag m₁.1 ∧
      CompilesAs flags (group₁ ++ group₂) tag (concat [m₁.1, m₂.1]) ∧
      CompilesAs flags (group₁ ++ d.braced (toString b.lower ++ "," ++ toString b.upper)) tag
        (replicate m₁.1 b) ∧
      CompilesAs flags (group₁ ++ d.braced (toString b.lower ++ ",")) tag
        (replicate m₁.1 (.atLeast b.lower)) ∧
      (compile flags group₁ tag).mapError (·.kind) =
        (compile flags (d.escape ++ "(" ++ text₁ ++ d.closing) tag).mapError (·.kind) := by
  intro d group₁ group₂
  obtain ⟨pattern₁, hspells₁, rfl⟩ := compile_eq_ok_iff.mp h₁
  obtain ⟨pattern₂, hspells₂, rfl⟩ := compile_eq_ok_iff.mp h₂
  have hproper₁ := proper_of_spells hspells₁
  have hproper₂ := proper_of_spells hspells₂
  have hstate₁ (tag : Nat) : (pattern₁.matcher tag).1.start.state ≠ .mismatch :=
    (words_of_built (Pattern.built_matcher hproper₁ tag)).1
  have hstate₂ (tag : Nat) : (pattern₂.matcher tag).1.start.state ≠ .mismatch :=
    (words_of_built (Pattern.built_matcher hproper₂ tag)).1
  have hlower : b.lower ≤ Brace.largestWritten := b.lower_le_upper.trans hb
  have hlimit : Brace.largestWritten < unbounded := by decide
  have hgroup₁ : IsElement flags group₁ pattern₁ := isElement_group ho₁ hspells₁
  have hgroup₂ : IsElement flags group₂ pattern₂ := isElement_group ho₂ hspells₂
  refine ⟨hgroup₁.compilesAs ?_, hgroup₁.compilesAs_append hgroup₂ ?_,
    hgroup₁.compilesAs_braced (fun _ => Brace.read_between hb) ?_,
    hgroup₁.compilesAs_braced (fun _ => Brace.read_atLeast hlower) ?_,
    compile_of_opens ho₁ .plain hspells₁ tag⟩
  · exact Pattern.alike_matcher hproper₁ tag tag₁
  · refine alike_concat (.cons (Pattern.alike_matcher hproper₁ _ _)
      (.cons (Pattern.alike_matcher hproper₂ _ _) .nil)) ?_
    intro e he
    simp only [Pattern.matchers, List.mem_cons, List.not_mem_nil, or_false] at he
    rcases he with rfl | rfl
    · exact hstate₁ _
    · exact hstate₂ _
  · exact alike_replicate (Pattern.alike_matcher hproper₁ _ _) (hstate₁ _) (hlower.trans_lt hlimit)
  · have hleast : (Bounds.atLeast b.lower).lower < unbounded :=
      (Nat.min_le_left ..).trans_lt (hlower.trans_lt hlimit)
    exact alike_replicate (Pattern.alike_matcher hproper₁ _ _) (hstate₁ _) hleast

theorem states_of_joined_groups :
    ∃ c, compile [] ("(" ++ "[a]" ++ ")" ++ ("(?:" ++ "[b]" ++ ")")) = .ok c ∧
      c.1.start.states ['a', 'b'] = [.undecided, .finalMatch] := by
  let set (c : Char) := CharSet.addChar { ignoreCase := false } c
  have ha : compile [] "[a]" = .ok (.satisfying 0 (.inSet (set 'a')), 1) := by
    refine compile_eq_ok_iff.mpr ⟨.satisfying (.inSet (set 'a')), ?_, rfl⟩
    exact .step rfl rfl (.step rfl rfl (.step rfl rfl (.done rfl rfl)))
  have hb : compile [] "[b]" = .ok (.satisfying 0 (.inSet (set 'b')), 1) := by
    refine compile_eq_ok_iff.mpr ⟨.satisfying (.inSet (set 'b')), ?_, rfl⟩
    exact .step rfl rfl (.step rfl rfl (.step rfl rfl (.done rfl rfl)))
  have htext : "(" ++ "[a]" ++ ")" ++ ("(?:" ++ "[b]" ++ ")") = "([a])(?:[b])" := rfl
  have hwhole : ∃ c, compile [] "([a])(?:[b])" = .ok c := by
    refine ⟨_, compile_eq_ok_iff.mpr
      ⟨.concat [.satisfying (.inSet (set 'a')), .satisfying (.inSet (set 'b'))], ?_, rfl⟩⟩
    exact .step rfl rfl (.step rfl rfl (.step rfl rfl (.step rfl rfl (.step rfl rfl (.step rfl rfl
      (.step rfl rfl (.step rfl rfl (.step rfl rfl (.step rfl rfl (.step rfl rfl
      (.done rfl rfl)))))))))))
  obtain ⟨c, hc⟩ := hwhole
  have hb₂ : (Bounds.exactly 2).upper ≤ Brace.largestWritten := by decide
  have hgroups := (compile_grouped ha hb hb₂ .plain (.unnumbered rfl) 0).2.1
  rw [htext]
  refine ⟨c, hc, ?_⟩
  rcases hgroups with ⟨e, he, -⟩ | ⟨c', hc', -, hstates⟩
  · cases hc.symm.trans he
  · cases hc.symm.trans hc'
    exact (hstates ['a', 'b']).trans (by decide)

end IncrementalRegex
