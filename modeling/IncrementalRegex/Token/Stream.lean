import IncrementalRegex.Token.Reader

namespace IncrementalRegex

/-- A token and the number of characters that had to be read for it. -/
structure Lexeme where
  token : Token
  offset : Nat
deriving DecidableEq, Repr

/-- All tokens of a pattern, up to its end or its first fault. -/
structure TokenStream where
  lexemes : List Lexeme
  /-- The fault that ends the stream, if it does not end with the pattern. -/
  fault : Option PatternError
deriving DecidableEq, Repr

namespace TokenReader

/-- Falls with every token that is read. -/
def weight (s : TokenReader) : Nat :=
  2 * s.cursor.remaining + s.expression.pending.size + s.bracket.ahead.size

theorem weight_readInContext {s s' : TokenReader} {t : Token}
    (h : s.readInContext = .ok (some (t, s'))) : s'.weight < s.weight := by
  unfold readInContext at h
  cases hc : s.context <;> rw [hc] at h
  case expression =>
    obtain ⟨_ | ⟨u, r, c⟩, hr, h⟩ := bind_eq_ok.1 h <;> cases h
    have := ExpressionReader.weight_read hr
    simp only [ExpressionReader.weight, weight] at *
    omega
  case bracket =>
    obtain ⟨_ | ⟨u, r, c⟩, hr, h⟩ := bind_eq_ok.1 h <;> cases h
    have := BracketReader.weight_read hr
    simp only [BracketReader.weight, weight] at *
    omega
  case subexpression =>
    obtain ⟨_ | ⟨u, c⟩, hg, h⟩ := bind_eq_ok.1 h
    · obtain ⟨_ | ⟨u, r, c⟩, hr, h⟩ := bind_eq_ok.1 h <;> cases h
      have := ExpressionReader.weight_read hr
      simp only [ExpressionReader.weight, weight] at *
      omega
    · cases h
      have := Lexicon.remaining_read hg
      simp only [weight] at *
      omega

theorem weight_read {s s' : TokenReader} {t : Token} (h : s.read = .ok (some (t, s'))) :
    s'.weight < s.weight := by
  obtain ⟨_ | ⟨u, s₁⟩, hr, h⟩ := bind_eq_ok.1 h
  · cases h
  · have := weight_readInContext hr
    dsimp only at h
    split at h <;> cases h
    exact this

/-- The tokens that the reader still has to read. -/
def stream (s : TokenReader) : TokenStream :=
  match _read : s.read with
  | .error e => ⟨[], some e⟩
  | .ok none => ⟨[], none⟩
  | .ok (some (t, next)) =>
    let later := next.stream
    ⟨⟨t, next.offset⟩ :: later.lexemes, later.fault⟩
termination_by s.weight
decreasing_by exact weight_read ‹_›

end TokenReader

namespace TokenStream

def ofPattern (flags : Flags) (pattern : String) : TokenStream :=
  (TokenReader.ofPattern flags pattern).stream

/-- The number of characters read for all the tokens. -/
def offset (s : TokenStream) : Nat := (s.lexemes.getLast?.map Lexeme.offset).getD 0

/-- The tokens, and the fault as the last item. -/
def items (s : TokenStream) : List (Except PatternError Token) :=
  s.lexemes.map (.ok ·.token) ++ s.fault.toList.map .error

end TokenStream
end IncrementalRegex
