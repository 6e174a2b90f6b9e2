import IncrementalRegex.Proofs.Alternation
import IncrementalRegex.Proofs.Quantified

namespace IncrementalRegex

variable {d : Dialect} {w v u rest : List Char} {ts : List Token} {es : List Pattern}

/-- Characters that a line holds nowhere, but for a star at its start. -/
def lineSigns : List Char := ['\n', '.', '[', '\x7b', '*', '\\']

def anchors : List Char := ['^', '$']

/-- A text in which only the first character may be a star, the first is no caret and the last is no
dollar sign. -/
structure IsLine (w : List Char) : Prop where
  chars : ∃ star v, w = star ++ v ∧ (star = [] ∨ star = ['*']) ∧ ∀ c ∈ v, c ∉ lineSigns
  start : w.head? ≠ some '^'
  finish : w.getLast? ≠ some '$'

/-- The tokens of a text: each anchor is one, and so is each run of characters between anchors. -/
inductive Pieces : List Char → List Token → Prop where
  | nil : Pieces [] []
  | anchor {x : Char} {w : List Char} {ts : List Token} (h : x ∈ anchors) (later : Pieces w ts) :
      Pieces (x :: w) (.ofChar .assertion x :: ts)
  | run {c : Char} {cs w : List Char} {ts : List Token} (plain : ∀ x ∈ c :: cs, x ∉ anchors)
      (ends : ∀ x ∈ w.head?, x ∈ anchors) (later : Pieces w ts) :
      Pieces (c :: (cs ++ w)) (.ofString .stringLiteral (c :: cs) :: ts)

theorem exists_pieces (w : List Char) : ∃ ts, Pieces w ts := by
  induction w with
  | nil => exact ⟨[], .nil⟩
  | cons c w ih =>
    obtain ⟨ts, later⟩ := ih
    by_cases hc : c ∈ anchors
    · exact ⟨_, .anchor hc later⟩
    · have hone : ∀ x ∈ [c], x ∉ anchors := by simpa using hc
      cases later with
      | nil => exact ⟨_, @Pieces.run c [] [] _ hone (by simp) .nil⟩
      | anchor h later => exact ⟨_, @Pieces.run c [] _ _ hone (by simpa using h) (.anchor h later)⟩
      | run plain ends later =>
        exact ⟨_, .run (List.forall_mem_cons.mpr ⟨hc, plain⟩) ends later⟩

theorem Lexicon.read_anchor (d : Dialect) {x : Char} (hx : x ∈ anchors)
    (before rest : List Char) : (expression d false).read ⟨before, x :: rest⟩ =
      .ok (some (.ofChar .assertion x, ⟨x :: before, rest⟩)) := by
  simp only [anchors, List.mem_cons, List.not_mem_nil, or_false] at hx
  rcases hx with rfl | rfl <;> cases d <;> rfl

/-- No run of ordinary characters goes on there. -/
def EndsRun (d : Dialect) (rest : List Char) : Prop := ∀ before,
  ExpressionReader.ordinaryRun (.expression d false) ⟨before, rest⟩ =
    .ok ([], false, ⟨before, rest⟩)

theorem endsRun_nil (d : Dialect) : EndsRun d [] := fun _ =>
  ExpressionReader.ordinaryRun_of_end (Lexicon.read_of_rest_nil rfl)

theorem endsRun_anchor (d : Dialect) {x : Char} (hx : x ∈ anchors) (rest : List Char) :
    EndsRun d (x :: rest) := fun before =>
  ExpressionReader.ordinaryRun_of_sign (Lexicon.read_anchor d hx before rest) rfl

/-- In the basic dialects all other characters stand for themselves. -/
theorem notMem_specials (hd : d.isBasic) {c : Char} (hc : c ∉ lineSigns) (ha : c ∉ anchors) :
    c ∉ d.specials ∧ d.Quotable [c] := by
  have hspecials : ∀ x ∈ d.specials, x ∈ lineSigns ∨ x ∈ anchors := by
    cases d with
    | basic | grep => simp [Dialect.specials, lineSigns, anchors]
    | extended | egrep | awk | ecmascript => cases hd
  refine ⟨fun h => (hspecials c h).elim hc ha, fun _ h => ?_, fun _ h => ?_⟩ <;>
    rw [← List.mem_singleton.mp h] at hc <;> exact hc (by decide)

theorem quotable_of_notMem (hd : d.isBasic) (h : ∀ c ∈ w, c ∉ lineSigns ∧ c ∉ anchors) :
    d.Quotable w where
  newline hn hw := (notMem_specials hd (h _ hw).1 (h _ hw).2).2.newline hn (by simp)
  brace hb hw := (notMem_specials hd (h _ hw).1 (h _ hw).2).2.brace hb (by simp)

namespace TokenReader

theorem read_anchor (d : Dialect) {x : Char} (hx : x ∈ anchors) (before rest : List Char) :
    (fresh d false ⟨before, x :: rest⟩).read =
      .ok (some (.ofChar .assertion x, fresh d false ⟨x :: before, rest⟩)) := by
  have hsign : ExpressionReader.Reads { dialect := d, ignoreCase := false } ⟨before, x :: rest⟩
      (.ofChar .assertion x) { dialect := d, ignoreCase := false } ⟨x :: before, rest⟩ :=
    .sign rfl (Lexicon.read_anchor d hx before rest) rfl rfl
  exact read_eq_some_iff.mpr ⟨_, readInContext_eq_some_iff.mpr
    (.expression rfl (ExpressionReader.read_eq_some_iff.mpr hsign)), rfl, rfl⟩

theorem read_run (hd : d.isBasic) {c : Char} (h : ∀ x ∈ c :: w, x ∉ lineSigns ∧ x ∉ anchors)
    (hrest : EndsRun d rest) (before : List Char) : ∃ before',
    (fresh d false ⟨before, c :: (w ++ rest)⟩).read = .ok (some
      (.ofString .stringLiteral (c :: w), fresh d false ⟨before', rest⟩)) := by
  have hplain : ∀ x ∈ c :: w, x ∉ d.specials := fun x hx =>
    (notMem_specials hd (h x hx).1 (h x hx).2).1
  obtain ⟨hc, hw⟩ := List.forall_mem_cons.mp h
  obtain ⟨b₁, hfirst⟩ := Lexicon.read_quoteChar false (notMem_specials hd hc.1 hc.2).2 before
    (w ++ rest)
  obtain ⟨b₂, hrun⟩ := ExpressionReader.ordinaryRun_quote false
    (fun before => ⟨before, hrest before⟩) (quotable_of_notMem hd hw) b₁
  rw [quote_of_notMem fun x hx => hplain x (List.mem_cons_of_mem _ hx), foldIf_false, List.map_id,
    List.append_nil] at hrun
  rw [Dialect.quoteChar, if_neg (hplain c List.mem_cons_self)] at hfirst
  have hwhole : ExpressionReader.Reads { dialect := d, ignoreCase := false }
      ⟨before, c :: (w ++ rest)⟩ (.ofString .stringLiteral (c :: w))
      { dialect := d, ignoreCase := false } ⟨b₂, rest⟩ :=
    .whole (t := .ofChar .literal c) rfl hfirst rfl hrun
  exact ⟨b₂, read_of_reads hwhole (by simp [Token.ofString])⟩

/-- A text is read piece by piece, up to where a run can end. -/
theorem readsTo_pieces (hd : d.isBasic) (h : Pieces w ts) (hw : ∀ c ∈ w, c ∉ lineSigns)
    (hrest : EndsRun d rest) (before : List Char) : ∃ before',
    (fresh d false ⟨before, w ++ rest⟩).ReadsTo ts (fresh d false ⟨before', rest⟩) := by
  induction h generalizing before with
  | nil => exact ⟨before, .refl _⟩
  | @anchor x w ts hx _ ih =>
    obtain ⟨before', hreads⟩ := ih (List.forall_mem_cons.mp hw).2 (x :: before)
    exact ⟨before', .step (read_anchor d hx before (w ++ rest)) hreads⟩
  | @run c cs w ts plain ends _ ih =>
    have hrun : ∀ x ∈ c :: cs, x ∉ lineSigns ∧ x ∉ anchors := fun x hx =>
      ⟨hw x (List.mem_append_left w hx), plain x hx⟩
    have hends : EndsRun d (w ++ rest) := by
      cases w with
      | nil => exact hrest
      | cons x w => exact endsRun_anchor d (ends x rfl) (w ++ rest)
    obtain ⟨b₁, hread⟩ := read_run hd hrun hends before
    obtain ⟨before', hreads⟩ := ih (fun x hx => hw x (List.mem_append_right (c :: cs) hx)) b₁
    rw [List.cons_append, List.append_assoc]
    exact ⟨before', .step hread hreads⟩

end TokenReader

/-- The elements of a branch, the latest first, together match `u` and nothing else. -/
def Exactly (es : List Pattern) (u : List Char) : Prop :=
  ∀ s, s ∈ Pattern.product es.reverse ↔ s = u

theorem exactly_nil : Exactly [] [] := Language.mem_one

theorem Exactly.cons {e : Pattern} (h : Exactly es u) (he : ∀ s, s ∈ e.language ↔ s = w) :
    Exactly (e :: es) (u ++ w) := by
  intro s
  rw [List.reverse_cons, Pattern.product_append, Pattern.product, Pattern.product, mul_one,
    Language.mem_mul]
  constructor
  · rintro ⟨a, ha, b, hb, rfl⟩
    rw [(h a).mp ha, (he b).mp hb]
  · rintro rfl
    exact ⟨u, (h u).mpr rfl, w, (he w).mpr rfl, rfl⟩

namespace Parser

variable {g : Grammar}

theorem step_caret (hd : g.dialect.isBasic) (he : es ≠ []) :
    (behind es).step g (.ofChar .assertion '^') = .ok (behind (.one '^' :: es)) :=
  if_pos ⟨hd, rfl, he⟩

theorem step_dollar (hd : g.dialect.isBasic) :
    (behind es).step g (.ofChar .assertion '$') = .ok ((behind es).expect .branchEnd) :=
  (if_neg fun h => by cases h.2.1).trans (if_pos ⟨hd, rfl⟩)

/-- A dollar sign before a further piece is an ordinary character. -/
theorem takeAll_dollar (hd : g.dialect.isBasic) (h : Pieces w ts) (hw : w ≠ []) :
    (behind es).takeAll g (.ofChar .assertion '$' :: ts) =
      (behind (.one '$' :: es)).takeAll g ts := by
  rw [takeAll_cons (step_dollar hd)]
  cases h with
  | nil => contradiction
  | anchor | run => rfl

/-- The pieces of a text are taken as that text, if it does not end with a dollar sign nor begin a
branch with a caret. -/
theorem takeAll_pieces (hd : g.dialect.isBasic) (h : Pieces w ts) (hes : Exactly es u)
    (hstart : es ≠ [] ∨ w.head? ≠ some '^') (hfinish : w.getLast? ≠ some '$') :
    ∃ es', (behind es).takeAll g ts = .ok (behind es') ∧ Exactly es' (u ++ w) := by
  induction h generalizing es u with
  | nil => exact ⟨es, rfl, by rwa [List.append_nil]⟩
  | @anchor x w ts hx later ih =>
    have hes' : Exactly (.one x :: es) (u ++ [x]) := hes.cons fun _ => Iff.rfl
    have hlast : w.getLast? ≠ some '$' := by
      intro hw
      rw [List.getLast?_cons, hw] at hfinish
      exact hfinish rfl
    obtain ⟨es', htake, hexactly⟩ := ih hes' (.inl (List.cons_ne_nil _ _)) hlast
    rw [List.append_assoc, List.singleton_append] at hexactly
    refine ⟨es', ?_, hexactly⟩
    simp only [anchors, List.mem_cons, List.not_mem_nil, or_false] at hx
    rcases hx with rfl | rfl
    · have hne : es ≠ [] := hstart.resolve_right fun h => h rfl
      rw [takeAll_cons (step_caret hd hne), htake]
    · have hne : w ≠ [] := by
        rintro rfl
        exact hfinish rfl
      rw [takeAll_dollar hd later hne, htake]
  | @run c cs w ts _ _ later ih =>
    have hes' : Exactly (.ofText (c :: cs) :: es) (u ++ (c :: cs)) :=
      hes.cons fun _ => Pattern.mem_language_ofText
    have hlast : w.getLast? ≠ some '$' := by
      intro hw
      rw [← List.cons_append, List.getLast?_append, hw] at hfinish
      exact hfinish rfl
    obtain ⟨es', htake, hexactly⟩ := ih hes' (.inl (List.cons_ne_nil _ _)) hlast
    rw [List.append_assoc, List.cons_append] at hexactly
    exact ⟨es', htake, hexactly⟩

end Parser

variable {g : Grammar}

/-- The tokens of the star that a line may begin with. -/
def leadingTokens : List Char → List Token
  | [] => []
  | _ :: _ => (Bounds.atLeast 0).tokens '*'

theorem TokenReader.readsTo_star (hstar : u = [] ∨ u = ['*']) (before rest : List Char) :
    ∃ before', (fresh d false ⟨before, u ++ rest⟩).ReadsTo (leadingTokens u)
      (fresh d false ⟨before', rest⟩) := by
  rcases hstar with rfl | rfl
  · exact ⟨before, .refl _⟩
  · exact readsTo_quantifier (quantifies_star d false rest) before

theorem Parser.takeAll_star (hd : g.dialect.isBasic) (hstar : u = [] ∨ u = ['*']) :
    ∃ es, takeAll g {} (leadingTokens u) = .ok (behind es) ∧ Exactly es u ∧ (u ≠ [] → es ≠ []) := by
  rcases hstar with rfl | rfl
  · exact ⟨[], rfl, exactly_nil, fun h => absurd rfl h⟩
  · refine ⟨[.one '*'], ?_, exactly_nil.cons fun _ => Iff.rfl, fun _ => List.cons_ne_nil _ _⟩
    have hlower : step g {} ⟨.repLower, '*', 0, []⟩ = .ok (expect {} (.upperBound 0)) :=
      if_pos ⟨hd, rfl⟩
    exact takeAll_cons hlower

/-- A line is read and taken as itself, where a run can end behind it. -/
theorem IsLine.takes (h : IsLine w) (hd : d.isBasic) (hg : g.dialect = d) (hrest : EndsRun d rest) :
    ∃ ts before es, (TokenReader.fresh d false ⟨[], w ++ rest⟩).ReadsTo ts
        (.fresh d false ⟨before, rest⟩) ∧
      Parser.takeAll g {} ts = .ok (.behind es) ∧ Exactly es w := by
  subst hg
  obtain ⟨star, v, rfl, hstar, hv⟩ := h.chars
  obtain ⟨ts, hpieces⟩ := exists_pieces v
  obtain ⟨b₁, hfirst⟩ := TokenReader.readsTo_star hstar [] (v ++ rest)
  obtain ⟨b₂, hlater⟩ := TokenReader.readsTo_pieces hd hpieces hv hrest b₁
  obtain ⟨es, htake, hexactly, hne⟩ := Parser.takeAll_star hd hstar
  have hstart : es ≠ [] ∨ v.head? ≠ some '^' := by
    by_cases hu : star = []
    · exact .inr (by simpa [hu] using h.start)
    · exact .inl (hne hu)
  have hfinish : v.getLast? ≠ some '$' := by
    intro hlast
    have hline := h.finish
    rw [List.getLast?_append, hlast] at hline
    exact hline rfl
  obtain ⟨es', htake', hexactly'⟩ := Parser.takeAll_pieces hd hpieces hexactly hstart hfinish
  refine ⟨leadingTokens star ++ ts, b₂, es', ?_, ?_, hexactly'⟩
  · rw [List.append_assoc]
    exact hfirst.trans hlater
  · rw [Parser.takeAll_append, htake]
    exact htake'

theorem IsLine.spells (h : IsLine w) (hd : d.isBasic) (hg : g.dialect = d) :
    ∃ pattern, Spells g (.start d false w) {} pattern ∧ ∀ s, s ∈ pattern.language ↔ s = w := by
  obtain ⟨ts, before, es, hreads, htake, hexactly⟩ := h.takes hd hg (endsRun_nil d)
  rw [List.append_nil] at hreads
  refine ⟨.join .concat es.reverse, (Reaches.of_readsTo hreads htake).spells (.done rfl rfl),
    fun s => ?_⟩
  rw [Pattern.language_join_concat]
  exact hexactly s

/-- Lines with newlines between them are a choice between the lines. -/
theorem spells_lines (hd : d.hasNewlineAlternation) (hb : d.isBasic) (hg : g.dialect = d)
    (ws : List (List Char)) (hw : IsLine w) (hws : ∀ v ∈ ws, IsLine v) :
    ∃ pattern, Spells g (.start d false (List.intercalate ['\n'] (w :: ws))) {} pattern ∧
      ∀ s, s ∈ pattern.language ↔ s ∈ w :: ws := by
  induction ws generalizing w with
  | nil =>
    obtain ⟨pattern, hspells, hpattern⟩ := hw.spells hb hg
    exact ⟨pattern, by rwa [List.intercalate_singleton],
      fun s => (hpattern s).trans List.mem_singleton.symm⟩
  | cons v ws ih =>
    obtain ⟨hv, hws⟩ := List.forall_mem_cons.mp hws
    obtain ⟨pattern₁, hspells₁, hpattern₁⟩ := hw.spells hb hg
    obtain ⟨pattern₂, hspells₂, hpattern₂⟩ := ih hv hws
    obtain ⟨bs₁, bs₂, rfl, rfl, hspells⟩ :=
      spells_separated (.inr ⟨rfl, hd⟩) hspells₁ hspells₂
    refine ⟨_, by rwa [List.intercalate_cons_cons, List.append_assoc], fun s => ?_⟩
    rw [Pattern.language_join_either] at hpattern₁ hpattern₂ ⊢
    rw [Pattern.union_append, Language.mem_add, hpattern₁, hpattern₂]
    exact List.mem_cons.symm

variable {flags : Flags}

theorem exists_compile_of_spells {text : List Char} {pattern : Pattern}
    (h : Spells (.ofFlags flags) (.start (.ofFlags flags) (flags.contains .icase) text) {} pattern)
    (tag : Nat) : ∃ m, compile flags (String.ofList text) tag = .ok m ∧
      ∀ s, m.1.accepts s ↔ s ∈ pattern.language := by
  have hcompile : compile flags (String.ofList text) tag = .ok (pattern.matcher tag) := by
    refine compile_eq_ok_iff.mpr ⟨pattern, ?_, rfl⟩
    rw [TokenReader.ofPattern, String.toList_ofList]
    exact h
  exact ⟨_, hcompile, accepts_iff_of_compile hcompile⟩

/-- The text is not compiled, since something in it is not supported. -/
def IsUnsupported (flags : Flags) (tag : Nat) (text : List Char) : Prop :=
  ∃ e, compile flags (String.ofList text) tag = .error e ∧ e.kind = .unsupported

theorem isUnsupported_dollar (hcase : flags.contains .icase = false)
    (hd : (Dialect.ofFlags flags).isBasic) (hw : IsLine w) (tag : Nat) :
    IsUnsupported flags tag (w ++ ['$']) := by
  have hdollar : '$' ∈ anchors := by decide
  obtain ⟨ts, before, es, hline, htake, -⟩ := hw.takes (g := .ofFlags flags) hd rfl
    (endsRun_anchor _ hdollar [])
  have hreads := hline.trans (.step (TokenReader.read_anchor _ hdollar before []) (.refl _))
  rw [← hcase, ← TokenReader.ofPattern_ofList] at hreads
  have hlast : Parser.takeAll (.ofFlags flags) {} (ts ++ [.ofChar .assertion '$']) =
      .ok ((Parser.behind es).expect .branchEnd) := by
    rw [Parser.takeAll_append, htake]
    exact Parser.takeAll_cons (Parser.step_dollar hd)
  have hkind := compile_kind_of_tokens hreads tag
  rw [outcome, hlast] at hkind
  exact mapError_eq_error.mp hkind

theorem isUnsupported_caret (hcase : flags.contains .icase = false) (w : List Char) (tag : Nat) :
    IsUnsupported flags tag ('^' :: w) := by
  have hread := TokenReader.read_anchor (Dialect.ofFlags flags)
    (by decide : '^' ∈ anchors) [] w
  rw [← hcase, ← TokenReader.ofPattern_ofList] at hread
  have hstep : Parser.step (.ofFlags flags) {} (.ofChar .assertion '^') = .error .anchor :=
    (if_neg fun h => h.2.2 rfl).trans (if_neg fun h => by cases h.2)
  have hkind := compile_kind flags (String.ofList ('^' :: w)) tag
  rw [TokenReader.tokens_of_token hread, outcome, Parser.takeAll_of_error hstep] at hkind
  exact mapError_eq_error.mp hkind

/-- In the basic dialects a line is a pattern of nothing but itself, and lines with newlines between
them are where a newline separates alternatives; with an anchor added at either end a line is
refused. -/
theorem compile_lines (hcase : .icase ∉ flags) (tag : Nat) :
    (Dialect.ofFlags flags = .basic → ∀ w, IsLine w →
      ∃ m, compile flags (String.ofList w) tag = .ok m ∧ ∀ s, m.1.accepts s ↔ s = w) ∧
    (Dialect.ofFlags flags = .grep → ∀ w ws, (∀ v ∈ w :: ws, IsLine v) →
      ∃ m, compile flags (String.ofList (List.intercalate ['\n'] (w :: ws))) tag = .ok m ∧
        ∀ s, m.1.accepts s ↔ s ∈ w :: ws) ∧
    ((Dialect.ofFlags flags).isBasic → ∀ w, IsLine w →
      IsUnsupported flags tag (w ++ ['$']) ∧ IsUnsupported flags tag ('^' :: w)) := by
  have hplain : flags.contains .icase = false := by simpa using hcase
  refine ⟨fun hd w hw => ?_, fun hd w ws hws => ?_, fun hd w hw => ⟨?_, ?_⟩⟩
  · have hbasic : (Dialect.ofFlags flags).isBasic := by rw [hd]; rfl
    obtain ⟨pattern, hspells, hpattern⟩ := hw.spells (g := .ofFlags flags) hbasic rfl
    rw [← hplain] at hspells
    obtain ⟨m, hcompile, haccepts⟩ := exists_compile_of_spells hspells tag
    exact ⟨m, hcompile, fun s => (haccepts s).trans (hpattern s)⟩
  · have hbasic : (Dialect.ofFlags flags).isBasic := by rw [hd]; rfl
    have hnewline : (Dialect.ofFlags flags).hasNewlineAlternation := by rw [hd]; rfl
    obtain ⟨hw, hws⟩ := List.forall_mem_cons.mp hws
    obtain ⟨pattern, hspells, hpattern⟩ :=
      spells_lines (g := .ofFlags flags) hnewline hbasic rfl ws hw hws
    rw [← hplain] at hspells
    obtain ⟨m, hcompile, haccepts⟩ := exists_compile_of_spells hspells tag
    exact ⟨m, hcompile, fun s => (haccepts s).trans (hpattern s)⟩
  · exact isUnsupported_dollar hplain hd hw tag
  · exact isUnsupported_caret hplain w tag

theorem compile_three_lines :
    (∃ m, compile [.grep] "*^$a\n\n$^" = .ok m ∧ m.1.accepts "*^$a".toList ∧ m.1.accepts [] ∧
      m.1.accepts "$^".toList ∧ ¬ m.1.accepts "a".toList) ∧
    ∃ e, compile [.basic] "*^$a$" = .error e ∧ e.kind = .unsupported := by
  have hstar : IsLine ['*', '^', '$', 'a'] :=
    ⟨⟨['*'], ['^', '$', 'a'], rfl, .inr rfl, by simp [lineSigns]⟩, by decide, by decide⟩
  have hempty : IsLine [] :=
    ⟨⟨[], [], rfl, .inl rfl, List.forall_mem_nil _⟩, by decide, by decide⟩
  have hanchors : IsLine ['$', '^'] :=
    ⟨⟨[], ['$', '^'], rfl, .inl rfl, by simp [lineSigns]⟩, by decide, by decide⟩
  have hlines : ∀ v ∈ [['*', '^', '$', 'a'], [], ['$', '^']], IsLine v := by
    simpa using ⟨hstar, hempty, hanchors⟩
  obtain ⟨m, hcompile, haccepts⟩ := (@compile_lines [.grep] (by decide) 0).2.1 rfl _ _ hlines
  refine ⟨⟨m, hcompile, ?_, ?_, ?_, ?_⟩, ?_⟩
  · exact (haccepts _).mpr (by decide)
  · exact (haccepts _).mpr (by decide)
  · exact (haccepts _).mpr (by decide)
  · exact fun h => absurd ((haccepts _).mp h) (by decide)
  · exact ((@compile_lines [.basic] (by decide) 0).2.2 rfl _ hstar).1

end IncrementalRegex
