namespace IncrementalRegex

inductive ErrorKind where
  | collatingElement
  | className
  | escapeSequence
  | backReference
  | bracket
  | parenthesis
  | brace
  | repetitionCount
  | range
  | memory
  | nothingToRepeat
  | complexity
  | nesting
  | unsupported
deriving DecidableEq, Repr

def ErrorKind.message : ErrorKind → String
  | collatingElement => "invalid collating element"
  | className => "invalid character class name"
  | escapeSequence => "invalid escape sequence"
  | backReference => "invalid back reference"
  | bracket => "unmatched bracket"
  | parenthesis => "unmatched parenthesis"
  | brace => "unmatched brace"
  | repetitionCount => "invalid repetition count"
  | range => "invalid character range"
  | memory => "insufficient memory to compile pattern"
  | nothingToRepeat => "repetition has nothing to repeat"
  | complexity => "pattern is too complex"
  | nesting => "groups are nested too deeply"
  | unsupported => "unsupported construct"

/-- A fault and the number of characters that had been read when it was found. -/
structure PatternError where
  kind : ErrorKind
  offset : Nat
deriving DecidableEq, Repr

def PatternError.message (e : PatternError) : String :=
  e.kind.message ++ " at offset " ++ toString e.offset

theorem bind_eq_ok {ε β γ : Type} {x : Except ε β} {f : β → Except ε γ} {y : γ} :
    x >>= f = .ok y ↔ ∃ a, x = .ok a ∧ f a = .ok y := by
  cases x <;> simp [bind, Except.bind]

end IncrementalRegex
