import IncrementalRegex.Proofs.Grouping
import IncrementalRegex.Proofs.Proper
import IncrementalRegex.Regex

namespace IncrementalRegex

namespace Dialect

/-- The characters that a backslash goes before. -/
def specials : Dialect → List Char
  | basic | grep => ['.', '[', '*', '^', '$', '\\']
  | extended | egrep | awk | ecmascript =>
    ['.', '[', ']', '(', ')', '\x7b', '\x7d', '*', '+', '?', '|', '^', '$', '\\']

def quoteChar (d : Dialect) (c : Char) : List Char := if c ∈ d.specials then ['\\', c] else [c]

/-- A pattern for nothing but the given text. -/
def quote (d : Dialect) (text : List Char) : List Char := text.flatMap d.quoteChar

/-- Some characters have a meaning of their own that no backslash takes from them. -/
structure Quotable (d : Dialect) (text : List Char) : Prop where
  newline : d.hasNewlineAlternation → '\n' ∉ text
  brace : d.isBasic → '\x7b' ∉ text

theorem Quotable.of_cons {d : Dialect} {c : Char} {text : List Char} (h : d.Quotable (c :: text)) :
    d.Quotable [c] ∧ d.Quotable text := by
  obtain ⟨hnewline, hbrace⟩ := h
  simp only [List.mem_cons, not_or] at hnewline hbrace
  refine ⟨⟨fun hd => ?_, fun hd => ?_⟩, ⟨fun hd => (hnewline hd).2, fun hd => (hbrace hd).2⟩⟩
  · simpa using (hnewline hd).1
  · simpa using (hbrace hd).1

end Dialect

variable {d : Dialect} {c : Char} {text : List Char}

namespace KindTable

/-- After a backslash a special character is an ordinary one. -/
theorem kind_escaped (hc : c ∈ d.specials) : (escapedOfDialect d).kind? c = some .literal := by
  have hall : d.specials.all fun x => (escapedOfDialect d).kind? x == some .literal := by
    cases d <;> decide
  exact eq_of_beq (List.all_eq_true.mp hall c hc)

/-- What is neither special nor excluded is an ordinary character. -/
theorem kind_plain (hc : c ∉ d.specials) (hq : d.Quotable [c]) :
    (ofDialect d).kind? c = some .literal := by
  have hkeys : ∀ p ∈ (ofDialect d).entries, p.1 ∈ d.specials ∨ (d.isBasic ∧ p.1 = '\x7b') ∨
      (d.hasNewlineAlternation ∧ p.1 = '\n') := by
    cases d <;> decide
  have hothers : (ofDialect d).digit = none ∧ (ofDialect d).otherwise = some .literal := by
    cases d <;> exact ⟨rfl, rfl⟩
  rw [kind_of_notMem hothers.1, hothers.2]
  intro p hp he
  rw [← he] at hc hq
  rcases hkeys p hp with hs | ⟨hd, hx⟩ | ⟨hd, hx⟩
  · exact hc hs
  · exact hq.brace hd (by simp [hx])
  · exact hq.newline hd (by simp [hx])

end KindTable

namespace Lexicon

theorem read_quoteChar (ignoreCase : Bool) (hq : d.Quotable [c]) (before rest : List Char) :
    ∃ before', (expression d ignoreCase).read ⟨before, d.quoteChar c ++ rest⟩ =
      .ok (some (.ofChar .literal (foldIf ignoreCase c), ⟨before', rest⟩)) := by
  by_cases hc : c ∈ d.specials
  · rw [Dialect.quoteChar, if_pos hc]
    have hescape : (expression d ignoreCase).escape? '\\' ⟨'\\' :: before, c :: rest⟩ =
        some (.literal, c, ⟨c :: '\\' :: before, rest⟩) :=
      escape_eq_some_iff.mpr ⟨_, rfl, rfl, KindTable.kind_escaped hc⟩
    exact ⟨_, read_eq_some_iff.mpr (.pair rfl hescape rfl)⟩
  · rw [Dialect.quoteChar, if_neg hc]
    have hbackslash : c ≠ '\\' := by
      intro he
      have hspecial : '\\' ∈ d.specials := by cases d <;> decide
      exact hc (he ▸ hspecial)
    have hescape : (expression d ignoreCase).escape? c ⟨c :: before, rest⟩ = none := by
      simp [escape?, expression, List.lookup_cons, beq_eq_false_iff_ne.mpr hbackslash]
    exact ⟨_, read_eq_some_iff.mpr (.alone rfl hescape (KindTable.kind_plain hc hq) rfl)⟩

end Lexicon

/-- A quoted text belongs to a run of ordinary characters, with whatever goes on behind it. -/
theorem ExpressionReader.ordinaryRun_quote (ignoreCase : Bool) {rest rest' later : List Char}
    {repeated : Bool} (hlater : ∀ before, ∃ before', ordinaryRun (.expression d ignoreCase)
      ⟨before, rest⟩ = .ok (later, repeated, ⟨before', rest'⟩)) (hq : d.Quotable text)
    (before : List Char) : ∃ before',
    ordinaryRun (.expression d ignoreCase) ⟨before, d.quote text ++ rest⟩ =
      .ok (text.map (foldIf ignoreCase) ++ later, repeated, ⟨before', rest'⟩) := by
  induction text generalizing before with
  | nil => exact hlater before
  | cons c text ih =>
    obtain ⟨hc, htext⟩ := hq.of_cons
    obtain ⟨b₁, hread⟩ := Lexicon.read_quoteChar ignoreCase hc before (d.quote text ++ rest)
    obtain ⟨b₂, hrun⟩ := ih htext b₁
    rw [Dialect.quote, List.flatMap_cons, List.append_assoc]
    exact ⟨b₂, ordinaryRun_of_literal hread rfl hrun⟩

/-- A text that is not empty is one token. -/
def quoteTokens : List Char → List Token
  | [] => []
  | c :: cs => [.ofString .stringLiteral (c :: cs)]

theorem TokenReader.readsTo_quote (ignoreCase : Bool) (hq : d.Quotable text)
    (before : List Char) : ∃ before',
    (fresh d ignoreCase ⟨before, d.quote text⟩).ReadsTo
      (quoteTokens (text.map (foldIf ignoreCase))) (fresh d ignoreCase ⟨before', []⟩) := by
  cases text with
  | nil => exact ⟨before, .refl _⟩
  | cons c text =>
    obtain ⟨hc, htext⟩ := hq.of_cons
    obtain ⟨b₁, hfirst⟩ := Lexicon.read_quoteChar ignoreCase hc before (d.quote text)
    obtain ⟨b₂, hrun⟩ := ExpressionReader.ordinaryRun_quote ignoreCase
      (fun _ => ⟨_, ExpressionReader.ordinaryRun_of_end (Lexicon.read_of_rest_nil rfl)⟩) htext b₁
    rw [List.append_nil, List.append_nil] at hrun
    have hread := ExpressionReader.read_eq_some_iff.mpr
      (.whole (r := { dialect := d, ignoreCase := ignoreCase }) rfl hfirst rfl hrun)
    exact ⟨b₂, .step (read_eq_some_iff.mpr
      ⟨_, readInContext_eq_some_iff.mpr (.expression rfl hread), rfl, rfl⟩) (.refl _)⟩

/-- The pattern of a quoted text. -/
def quotePattern : List Char → Pattern
  | [] => .concat []
  | c :: cs => .ofText (c :: cs)

theorem language_quotePattern (text : List Char) (tag : Nat) (s : List Char) :
    s ∈ ((quotePattern text).matcher tag).1.language ↔ s = text := by
  match text with
  | [] =>
    rw [quotePattern, Pattern.matcher, Matcher.language_concat]
    exact Language.mem_one s
  | [c] => exact Iff.rfl
  | c :: c' :: cs => exact Iff.rfl

variable {flags : Flags}

theorem compile_quote (hq : (Dialect.ofFlags flags).Quotable text) (tag : Nat) :
    ∃ m, compile flags (String.ofList ((Dialect.ofFlags flags).quote text)) tag = .ok m ∧
      ∀ s, m.1.accepts s ↔ s = text.map (foldIf (flags.contains .icase)) := by
  let ignoreCase := flags.contains .icase
  obtain ⟨before, hreads⟩ := TokenReader.readsTo_quote ignoreCase hq []
  rw [← TokenReader.ofPattern_ofList] at hreads
  have htake (cs : List Char) : ∃ last, Parser.takeAll (.ofFlags flags) {} (quoteTokens cs) =
      .ok last ∧ last.finish = .ok (quotePattern cs) := by
    cases cs <;> exact ⟨_, rfl, rfl⟩
  obtain ⟨last, htake, hfinish⟩ := htake (text.map (foldIf ignoreCase))
  have hcompile := compile_of_readsTo hreads rfl htake hfinish tag
  refine ⟨_, hcompile, fun s => ?_⟩
  rw [Matcher.accepts_iff_of_built (built_of_compile hcompile), language_quotePattern]

/-- Texts are folded to the same if they are as long as each other and folded to the same at every
place. -/
theorem map_foldCase_eq_iff {s t : List Char} :
    s.map foldCase = t.map foldCase ↔ s.Forall₂ (foldCase · = foldCase ·) t := by
  rw [← List.forall₂_eq_eq_eq, List.forall₂_map_left_iff, List.forall₂_map_right_iff]

namespace Regex

/-- A quoted text is matched by itself alone or, when case is ignored, by what differs from it in
nothing but case. -/
theorem ofPattern_quote (hq : (Dialect.ofFlags flags).Quotable text) :
    ∃ r, ofPattern flags (String.ofList ((Dialect.ofFlags flags).quote text)) = .ok r ∧
      (.icase ∉ flags → ∀ s, r.isMatch s ↔ s = text) ∧
      (.icase ∈ flags → ∀ s, r.isMatch s ↔ s.Forall₂ (foldCase · = foldCase ·) text) := by
  obtain ⟨m, hcompile, haccepts⟩ := compile_quote hq 0
  let r : Regex := ⟨String.ofList ((Dialect.ofFlags flags).quote text), flags, m.1⟩
  have hseen : r.seen = foldIf (flags.contains .icase) := rfl
  refine ⟨r, map_eq_ok.mpr ⟨m, hcompile, rfl⟩, fun hcase s => ?_, fun hcase s => ?_⟩ <;>
    rw [isMatch, haccepts, hseen]
  · have hplain : flags.contains .icase = false := by simpa using hcase
    rw [hplain, foldIf_false, List.map_id, List.map_id]
  · have hfold : flags.contains .icase = true := by simpa using hcase
    rw [hfold, foldIf_true, map_foldCase_eq_iff]

theorem isMatch_quoted_star : ∃ r, ofPattern [.basic, .icase] "a\\*" = .ok r ∧
    r.isMatch ['A', '*'] := by
  have hq : (Dialect.ofFlags [.basic, .icase]).Quotable ['a', '*'] :=
    ⟨fun hd => (by cases hd), fun _ => by decide⟩
  obtain ⟨r, hr, -, hmatch⟩ := ofPattern_quote hq
  refine ⟨r, hr, (hmatch (by decide) _).mpr ?_⟩
  exact .cons (by decide) (.cons rfl .nil)

end Regex

end IncrementalRegex
