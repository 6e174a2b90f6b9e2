import IncrementalRegex.Proofs.Spelling
import IncrementalRegex.Proofs.Tokens
import Mathlib.Data.List.Induction

namespace IncrementalRegex.TokenReader

variable {s s' : TokenReader} {t : Token}

/-- The items that come of calling for the next one until there is none. -/
inductive Yields : TokenReader → List (Except PatternError Token) → Prop where
  | stop {s s' : TokenReader} (next : s.next = (none, s')) : Yields s []
  | item {s s' : TokenReader} {x : Except PatternError Token}
      {xs : List (Except PatternError Token)} (next : s.next = (some x, s'))
      (later : Yields s' xs) : Yields s (x :: xs)

theorem Yields.unique {xs ys : List (Except PatternError Token)} (hx : s.Yields xs)
    (hy : s.Yields ys) : xs = ys := by
  induction hx generalizing ys with
  | stop next =>
    cases hy with
    | stop => rfl
    | item next' =>
      rw [next] at next'
      cases next'
  | item next _ ih =>
    cases hy with
    | stop next' =>
      rw [next] at next'
      cases next'
    | item next' later' =>
      rw [next] at next'
      cases next'
      rw [ih later']

theorem read_keeps (h : s.read = .ok (some (t, s'))) :
    s'.returned = s.returned ∧ s'.error = s.error := by
  obtain ⟨u, hread, -, rfl⟩ := read_eq_some_iff.mp h
  cases readInContext_eq_some_iff.mp hread <;> exact ⟨rfl, rfl⟩

/-- What a reader that holds nothing back gets is what it reads. -/
theorem get_eq (hreturned : s.returned = {}) (herror : s.error = none) :
    s.get = match s.read with
      | .ok (some (t, s')) => (.ok (some t), s')
      | .ok none => (.ok none, s)
      | .error e => (.error e, s.failed e) := by
  have hpop := Queue.pop_eq_none_iff.mpr hreturned
  rcases hread : s.read with e | _ | ⟨t, s'⟩ <;> simp only [get, herror, hpop, hread]

theorem get_of_returned {returned : Queue Token} (herror : s.error = none)
    (hpop : s.returned.pop? = some (t, returned)) :
    s.get = (.ok (some t), { s with returned }) := by
  simp only [get, herror, hpop]

/-- All that getting a token can come to: what was given back, what is read, and a fault, which is
kept. -/
inductive Gets (s : TokenReader) : Except PatternError (Option Token) → TokenReader → Prop where
  | again {e : PatternError} (error : s.error = some e) : Gets s (.error e) s
  | returned {t : Token} {returned : Queue Token} (error : s.error = none)
      (pop : s.returned.pop? = some (t, returned)) : Gets s (.ok (some t)) { s with returned }
  | token {s' : TokenReader} {t : Token} (error : s.error = none) (returned : s.returned = {})
      (read : s.read = .ok (some (t, s'))) : Gets s (.ok (some t)) s'
  | finish (error : s.error = none) (returned : s.returned = {}) (read : s.read = .ok none) :
      Gets s (.ok none) s
  | fault {e : PatternError} (error : s.error = none) (returned : s.returned = {})
      (read : s.read = .error e) : Gets s (.error e) (s.failed e)

theorem gets (s : TokenReader) : s.Gets s.get.1 s.get.2 := by
  cases herror : s.error with
  | some e =>
    have hget : s.get = (.error e, s) := by rw [get, herror]
    rw [hget]
    exact .again herror
  | none =>
    cases hpop : s.returned.pop? with
    | some p =>
      rw [get_of_returned herror hpop]
      exact .returned herror hpop
    | none =>
      have hreturned := Queue.pop_eq_none_iff.mp hpop
      rw [get_eq hreturned herror]
      rcases hread : s.read with e | _ | ⟨t, s'⟩
      · exact .fault herror hreturned hread
      · exact .finish herror hreturned hread
      · exact .token herror hreturned hread

theorem gets_of_get {x : Except PatternError (Option Token)} (h : s.get = (x, s')) :
    s.Gets x s' := by
  have hgets := s.gets
  rwa [h] at hgets

theorem next_eq (hreturned : s.returned = {}) (herror : s.error = none) :
    s.next = match s.read with
      | .ok (some (t, s')) => (some (.ok t), s')
      | .ok none => (none, s)
      | .error e => (some (.error e), s.failed e) := by
  rw [next, herror, get_eq hreturned herror]
  rcases s.read with e | _ | ⟨t, s'⟩ <;> rfl

/-- After a fault there is nothing more. -/
theorem yields_failed (hreturned : s.returned = {}) (e : PatternError) :
    (s.failed e).Yields [] := by
  have hnext : (s.failed e).next = (none, s.failed e) := by
    rw [next, failed, hreturned]
    rfl
  exact .stop hnext

theorem yields_stream (hreturned : s.returned = {}) (herror : s.error = none) :
    s.Yields s.stream.items := by
  induction s using TokenReader.stream.induct with
  | case1 s e read =>
    rw [stream_of_error read]
    refine .item ?_ (yields_failed hreturned e)
    rw [next_eq hreturned herror, read]
  | case2 s read =>
    rw [stream_of_end read]
    have hnext : s.next = (none, s) := by rw [next_eq hreturned herror, read]
    exact .stop hnext
  | case3 s t s' read ih =>
    obtain ⟨hr, he⟩ := read_keeps read
    rw [stream_of_token read]
    refine .item ?_ (ih (hr.trans hreturned) (he.trans herror))
    rw [next_eq hreturned herror, read]

/-- The tokens that are still to be read. -/
def tokens (s : TokenReader) : List Token := s.stream.lexemes.map Lexeme.token

theorem tokens_of_token (h : s.read = .ok (some (t, s'))) : s.tokens = t :: s'.tokens := by
  rw [tokens, stream_of_token h]
  rfl

theorem exists_read_of_tokens {ts : List Token} (h : s.tokens = t :: ts) :
    ∃ s', s.read = .ok (some (t, s')) ∧ s'.tokens = ts := by
  cases hr : s.read with
  | error e =>
    rw [tokens, stream_of_error hr] at h
    cases h
  | ok r =>
    cases r with
    | none =>
      rw [tokens, stream_of_end hr] at h
      cases h
    | some p =>
      rw [tokens_of_token hr] at h
      cases h
      exact ⟨_, rfl, rfl⟩

/-- Tokens read one after the other, from one place to another. -/
inductive ReadsTo : TokenReader → List Token → TokenReader → Prop where
  | refl (s : TokenReader) : ReadsTo s [] s
  | step {s s' s'' : TokenReader} {t : Token} {ts : List Token}
      (read : s.read = .ok (some (t, s'))) (later : ReadsTo s' ts s'') : ReadsTo s (t :: ts) s''

namespace ReadsTo

variable {s'' : TokenReader} {ts us : List Token}

theorem trans (h : s.ReadsTo ts s') (h' : s'.ReadsTo us s'') : s.ReadsTo (ts ++ us) s'' := by
  induction h with
  | refl => exact h'
  | step read _ ih => exact .step read (ih h')

theorem tokens_eq (h : s.ReadsTo ts s') : s.tokens = ts ++ s'.tokens := by
  induction h with
  | refl => rfl
  | step read _ ih => rw [tokens_of_token read, ih, List.cons_append]

theorem fault_eq (h : s.ReadsTo ts s') : s.stream.fault = s'.stream.fault := by
  induction h with
  | refl => rfl
  | step read _ ih => rw [stream_of_token read, ih]

end ReadsTo

/-- What every token keeps, given the tokens before it, holds at every place in the stream. -/
theorem exists_of_tokens {P : List Token → TokenReader → Prop}
    (step : ∀ {xs s t s'}, P xs s → s.read = .ok (some (t, s')) → P (xs ++ [t]) s')
    {xs ys : List Token} (h : P [] s) (ht : s.tokens = xs ++ ys) :
    ∃ s', P xs s' ∧ s'.tokens = ys := by
  induction xs using List.reverseRecOn generalizing ys with
  | nil => exact ⟨s, h, ht⟩
  | append_singleton xs x ih =>
    rw [List.append_assoc] at ht
    obtain ⟨s₁, h₁, ht₁⟩ := ih ht
    obtain ⟨s', hread, ht'⟩ := exists_read_of_tokens ht₁
    exact ⟨s', step h₁ hread, ht'⟩

end IncrementalRegex.TokenReader
