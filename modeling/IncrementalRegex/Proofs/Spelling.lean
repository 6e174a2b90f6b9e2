import IncrementalRegex.Pattern.Parse

namespace IncrementalRegex

/-- Token by token, a reader and a parser get from one place to another. -/
inductive Reaches (g : Grammar) : TokenReader → Parser → TokenReader → Parser → Prop where
  | refl (s : TokenReader) (p : Parser) : Reaches g s p s p
  | step {s s' s'' : TokenReader} {p p' p'' : Parser} {t : Token}
      (read : s.read = .ok (some (t, s'))) (take : p.step g t = .ok p')
      (later : Reaches g s' p' s'' p'') : Reaches g s p s'' p''

/-- What is left to read spells a pattern to a parser. -/
inductive Spells (g : Grammar) : TokenReader → Parser → Pattern → Prop where
  | done {s : TokenReader} {p : Parser} {pattern : Pattern} (read : s.read = .ok none)
      (finish : p.finish = .ok pattern) : Spells g s p pattern
  | step {s s' : TokenReader} {p p' : Parser} {t : Token} {pattern : Pattern}
      (read : s.read = .ok (some (t, s'))) (take : p.step g t = .ok p')
      (later : Spells g s' p' pattern) : Spells g s p pattern

variable {g : Grammar}

theorem Reaches.spells {s s' : TokenReader} {p p' : Parser} {pattern : Pattern}
    (h : Reaches g s p s' p') (h' : Spells g s' p' pattern) : Spells g s p pattern := by
  induction h with
  | refl => exact h'
  | step read take _ ih => exact .step read take (ih h')

namespace TokenReader

theorem stream_of_error {s : TokenReader} {e : PatternError} (h : s.read = .error e) :
    s.stream = ⟨[], some e⟩ := by
  rw [stream.eq_def]
  split <;> simp_all

theorem stream_of_end {s : TokenReader} (h : s.read = .ok none) : s.stream = ⟨[], none⟩ := by
  rw [stream.eq_def]
  split <;> simp_all

theorem stream_of_token {s s' : TokenReader} {t : Token} (h : s.read = .ok (some (t, s'))) :
    s.stream = ⟨⟨t, s'.offset⟩ :: s'.stream.lexemes, s'.stream.fault⟩ := by
  rw [stream.eq_def]
  split <;> simp_all

end TokenReader

/-- Takes the tokens of a stream, from `p` on. -/
def TokenStream.takeFrom (g : Grammar) (p : Parser) (s : TokenStream) : Except ParseError Parser :=
  s.lexemes.foldlM
    (fun p (l : Lexeme) => (p.step g l.token).mapError (.grammar · l.offset)) p

theorem spells_iff_takeFrom {s : TokenReader} {p : Parser} {pattern : Pattern} :
    Spells g s p pattern ↔ ∃ last, s.stream.takeFrom g p = .ok last ∧
      s.stream.fault = none ∧ last.finish = .ok pattern := by
  constructor
  · intro h
    induction h with
    | done read finish =>
      rw [TokenReader.stream_of_end read]
      exact ⟨_, rfl, rfl, finish⟩
    | @step s s' p p' t _ read take _ ih =>
      rw [TokenReader.stream_of_token read]
      obtain ⟨last, htake, hfault, hfinish⟩ := ih
      refine ⟨last, ?_, hfault, hfinish⟩
      rw [TokenStream.takeFrom, List.foldlM_cons, take]
      exact htake
  · induction s using TokenReader.stream.induct generalizing p with
    | case1 s e read =>
      rw [TokenReader.stream_of_error read]
      intro hm
      obtain ⟨_, _, hfault, _⟩ := hm
      contradiction
    | case2 s read =>
      rw [TokenReader.stream_of_end read]
      intro hm
      obtain ⟨last, htake, _, hfinish⟩ := hm
      cases htake
      exact .done read hfinish
    | case3 s t s' read ih =>
      rw [TokenReader.stream_of_token read]
      intro hm
      obtain ⟨last, htake, hfault, hfinish⟩ := hm
      rw [TokenStream.takeFrom, List.foldlM_cons] at htake
      cases take : p.step g t with
      | error e =>
        rw [take] at htake
        cases htake
      | ok p' =>
        rw [take] at htake
        exact .step read take (ih ⟨last, htake, hfault, hfinish⟩)

def Grammar.ofFlags (flags : Flags) : Grammar := ⟨.ofFlags flags, flags.contains .icase⟩

theorem parse_eq_ok_iff {s : TokenReader} {pattern : Pattern} :
    s.stream.parse g = .ok pattern ↔ Spells g s {} pattern := by
  rw [spells_iff_takeFrom, TokenStream.parse, bind_eq_ok]
  apply exists_congr
  intro last
  apply and_congr_right
  intro _
  cases s.stream.fault with
  | some e => simp
  | none =>
    cases last.finish with
    | ok p => exact ⟨fun h => ⟨rfl, (by cases h; rfl)⟩, fun h => (by cases h.2; rfl)⟩
    | error f => exact ⟨fun h => (by cases h), fun h => (by cases h.2)⟩

theorem compile_eq_ok_iff {flags : Flags} {text : String} {tag : Nat}
    {m : Matcher Char CharTest × Nat} :
    compile flags text tag = .ok m ↔
      ∃ pattern, Spells (.ofFlags flags) (.ofPattern flags text) {} pattern ∧
        m = pattern.matcher tag := by
  unfold compile
  dsimp only
  cases hparse : (TokenStream.ofPattern flags text).parse
      ⟨.ofFlags flags, flags.contains .icase⟩ with
  | error e =>
    constructor
    · intro h
      cases h
    · intro hm
      obtain ⟨pattern, hspells, -⟩ := hm
      cases hparse.symm.trans (parse_eq_ok_iff.mpr hspells)
  | ok p =>
    constructor
    · intro h
      cases h
      exact ⟨p, parse_eq_ok_iff.mp hparse, rfl⟩
    · intro hm
      obtain ⟨pattern, hspells, rfl⟩ := hm
      cases hparse.symm.trans (parse_eq_ok_iff.mpr hspells)
      rfl

end IncrementalRegex
