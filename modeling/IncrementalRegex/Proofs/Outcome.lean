import IncrementalRegex.Proofs.Iteration
import IncrementalRegex.Proofs.Kinds

namespace IncrementalRegex

theorem mapError_eq_ok {ε ε' β : Type} {x : Except ε β} {f : ε → ε'} {y : β} :
    x.mapError f = .ok y ↔ x = .ok y := by
  cases x <;> simp [Except.mapError]

theorem mapError_eq_error {ε ε' β : Type} {x : Except ε β} {f : ε → ε'} {e' : ε'} :
    x.mapError f = .error e' ↔ ∃ e, x = .error e ∧ f e = e' := by
  cases x <;> simp [Except.mapError]

namespace Parser

variable {g : Grammar} {p p' q : Parser} {t : Token} {ts us : List Token} {f : Fault}

theorem element_expect (e : Expecting) : (p.expect e).element g t = p.element g t := rfl

/-- At its start a group is read as it is elsewhere, unless it is said of what kind it is. -/
theorem step_groupStart (he : p.expecting = .element) (hk : t.kind.qualifiesGroup = false) :
    (p.expect .groupStart).step g t = p.step g t := by
  rw [step_eq_element rfl hk, element_expect, step, he]

/-- Takes one token after the other. -/
def takeAll (g : Grammar) (p : Parser) : List Token → Except Fault Parser
  | [] => .ok p
  | t :: ts =>
    match p.step g t with
    | .ok p' => takeAll g p' ts
    | .error f => .error f

theorem takeAll_cons (h : p.step g t = .ok p') : p.takeAll g (t :: ts) = p'.takeAll g ts := by
  rw [takeAll, h]

theorem takeAll_of_error (h : p.step g t = .error f) : p.takeAll g (t :: ts) = .error f := by
  rw [takeAll, h]

theorem takeAll_cons_eq_ok_iff :
    p.takeAll g (t :: ts) = .ok q ↔ ∃ p', p.step g t = .ok p' ∧ p'.takeAll g ts = .ok q := by
  rw [takeAll]
  cases p.step g t <;> simp

theorem takeAll_append (ts us : List Token) :
    p.takeAll g (ts ++ us) = p.takeAll g ts >>= fun q => q.takeAll g us := by
  induction ts generalizing p with
  | nil => rfl
  | cons t ts ih =>
    rw [List.cons_append]
    cases hs : p.step g t with
    | error f =>
      rw [takeAll_of_error hs, takeAll_of_error hs]
      rfl
    | ok q => rw [takeAll_cons hs, takeAll_cons hs, ih]

end Parser

/-- What tokens come to, if the stream ends with `fault` or, if that is none, with the pattern. -/
def outcome (g : Grammar) (ts : List Token) (fault : Option ErrorKind) :
    Except ErrorKind Pattern := do
  let last ← (Parser.takeAll g {} ts).mapError Fault.kind
  match fault with
  | some kind => .error kind
  | none => last.finish.mapError Fault.kind

variable {g : Grammar}

namespace TokenStream

theorem takeFrom_kind (lexemes : List Lexeme) (fault : Option PatternError) (p : Parser) :
    (takeFrom g p ⟨lexemes, fault⟩).mapError (·.error.kind) =
      (p.takeAll g (lexemes.map Lexeme.token)).mapError Fault.kind := by
  induction lexemes generalizing p with
  | nil => rfl
  | cons l lexemes ih =>
    rw [takeFrom, List.foldlM_cons, List.map_cons]
    cases hs : p.step g l.token with
    | error f =>
      rw [Parser.takeAll_of_error hs]
      rfl
    | ok q =>
      rw [Parser.takeAll_cons hs]
      exact ih q

theorem takeFrom_eq_ok_iff {s : TokenStream} {p q : Parser} :
    s.takeFrom g p = .ok q ↔ p.takeAll g (s.lexemes.map Lexeme.token) = .ok q := by
  rw [← mapError_eq_ok (f := (·.error.kind)), takeFrom_kind s.lexemes s.fault, mapError_eq_ok]

theorem parse_kind (s : TokenStream) :
    (s.parse g).mapError (·.error.kind) =
      outcome g (s.lexemes.map Lexeme.token) (s.fault.map (·.kind)) := by
  have htake := takeFrom_kind (g := g) s.lexemes s.fault {}
  change (takeFrom g {} s >>= _).mapError _ = _
  unfold outcome
  rw [← htake]
  cases takeFrom g {} s with
  | error e => rfl
  | ok last =>
    cases s.fault with
    | some e => rfl
    | none =>
      cases hf : last.finish <;>
        simp [bind, Except.bind, Except.mapError, hf, ParseError.error]

end TokenStream

theorem spells_iff_takeAll {s : TokenReader} {p : Parser} {pattern : Pattern} :
    Spells g s p pattern ↔ ∃ last, p.takeAll g s.tokens = .ok last ∧ s.stream.fault = none ∧
      last.finish = .ok pattern := by
  rw [spells_iff_takeFrom]
  exact exists_congr fun _ => and_congr_left fun _ => TokenStream.takeFrom_eq_ok_iff

theorem Reaches.of_readsTo {s s' : TokenReader} {p p' : Parser} {ts : List Token}
    (h : s.ReadsTo ts s') (take : p.takeAll g ts = .ok p') : Reaches g s p s' p' := by
  induction h generalizing p with
  | refl =>
    cases take
    exact .refl ..
  | @step s s₁ s' t ts read _ ih =>
    cases hs : p.step g t with
    | error f =>
      rw [Parser.takeAll_of_error hs] at take
      cases take
    | ok q =>
      rw [Parser.takeAll_cons hs] at take
      exact .step read hs (ih take)

/-- Tokens up to the end of a text, if they make sense, are what it compiles to. -/
theorem compile_of_readsTo {flags : Flags} {text : String} {s : TokenReader} {ts : List Token}
    {last : Parser} {pattern : Pattern} (h : (TokenReader.ofPattern flags text).ReadsTo ts s)
    (read : s.read = .ok none) (take : Parser.takeAll (.ofFlags flags) {} ts = .ok last)
    (finish : last.finish = .ok pattern) (tag : Nat) :
    compile flags text tag = .ok (pattern.matcher tag) :=
  compile_eq_ok_iff.mpr ⟨pattern, (Reaches.of_readsTo h take).spells (.done read finish), rfl⟩

/-- What is compiled, and what kind of error there is else, follows from the tokens. -/
theorem compile_kind (flags : Flags) (text : String) (tag : Nat) :
    (compile flags text tag).mapError (·.kind) =
      (outcome (.ofFlags flags) (TokenReader.ofPattern flags text).tokens
        ((TokenStream.ofPattern flags text).fault.map (·.kind))).map (·.matcher tag) := by
  have hparse := (TokenStream.ofPattern flags text).parse_kind (g := .ofFlags flags)
  rw [TokenReader.tokens, ← TokenStream.ofPattern, ← hparse, compile, ← Grammar.ofFlags]
  cases (TokenStream.ofPattern flags text).parse (.ofFlags flags) <;> rfl

end IncrementalRegex
