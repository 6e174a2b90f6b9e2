import IncrementalRegex.Queue
import IncrementalRegex.Token.Lexicon

namespace IncrementalRegex

/-- A place in a bracket expression, which decides what a caret, a dash and a closing bracket mean.
-/
inductive BracketPlace where
  /-- Directly after the opening bracket. -/
  | start
  /-- Directly after a leading caret. -/
  | afterCaret
  /-- After an item that starts no range. -/
  | afterItem
  /-- After an item that a dash makes the start of a range. -/
  | afterRangeStart
  /-- After the dash of a range. -/
  | afterDash
deriving DecidableEq, Repr

namespace BracketPlace

/-- The token that a token stands for at this place: out of their places, a closing bracket, a dash
and a caret are ordinary characters. -/
def meaning (p : BracketPlace) (t : Token) : Token :=
  match t.kind, p with
  | .negation, .start => t
  | .negation, _ => .ofChar .bracketLiteral '^'
  | .rBracket, .start | .rBracket, .afterCaret => .ofChar .bracketLiteral ']'
  | .rangeDash, .afterRangeStart => t
  | .rangeDash, _ => .ofChar .bracketLiteral '-'
  | _, _ => t

/-- The place after a token.  A closing bracket or dash at the start of the list is an item that
starts no range, and neither does the end of a range. -/
def after (p : BracketPlace) (t : Token) : BracketPlace :=
  match t.kind, p with
  | .rBracket, _ => start
  | .negation, .start => afterCaret
  | .rangeDash, .afterRangeStart => afterDash
  | .bracketLiteral, .start | .bracketLiteral, .afterCaret =>
    if t.char = ']' ∨ t.char = '-' then afterItem else afterRangeStart
  | _, .afterDash => afterItem
  | .bracketLiteral, _ | .collate, _ => afterRangeStart
  | _, _ => afterItem

end BracketPlace

structure BracketReader where
  place : BracketPlace := .start
  /-- The token after a dash, which has to be known before the dash is. -/
  ahead : Queue Token := {}
deriving DecidableEq, Repr

namespace BracketReader

def isEmpty (r : BracketReader) (c : Cursor) : Bool := r.ahead.isEmpty && c.atEnd

/-- The next token as its characters stand, without regard to the place. -/
def raw (d : Dialect) (r : BracketReader) (c : Cursor) :
    Except PatternError (Option (Token × Queue Token × Cursor)) :=
  match r.ahead.pop? with
  | some (t, ahead) => .ok (some (t, ahead, c))
  | none => do
    match ← (Lexicon.bracket d).read c with
    | some (t, c) => return some (t, r.ahead, c)
    | none => return none

/-- The next token.  A dash directly before the closing bracket is an ordinary character. -/
def read (d : Dialect) (r : BracketReader) (c : Cursor) :
    Except PatternError (Option (Token × BracketReader × Cursor)) := do
  match ← r.raw d c with
  | none => return none
  | some (t, ahead, c) =>
    let t := r.place.meaning t
    if t.hasKind .rangeDash then
      match ← (Lexicon.bracket d).read c with
      | none => return some (t, ⟨r.place.after t, ahead⟩, c)
      | some (next, c) =>
        let t := if next.hasKind .rBracket then .ofChar .bracketLiteral '-' else t
        return some (t, ⟨r.place.after t, ahead.push next⟩, c)
    else return some (t, ⟨r.place.after t, ahead⟩, c)

def weight (r : BracketReader) (c : Cursor) : Nat := 2 * c.remaining + r.ahead.size

theorem weight_raw {d : Dialect} {r : BracketReader} {c c' : Cursor} {t : Token}
    {ahead : Queue Token} (h : r.raw d c = .ok (some (t, ahead, c'))) :
    2 * c'.remaining + ahead.size < r.weight c := by
  unfold raw at h
  cases hp : r.ahead.pop? with
  | some p =>
    have := Queue.size_pop hp
    rw [hp] at h
    cases h
    simp only [weight]
    omega
  | none =>
    rw [hp] at h
    obtain ⟨_ | p, hr, h⟩ := bind_eq_ok.1 h
    · cases h
    · cases h
      have := Lexicon.remaining_read hr
      simp only [weight]
      omega

theorem weight_read {d : Dialect} {r r' : BracketReader} {c c' : Cursor} {t : Token}
    (h : r.read d c = .ok (some (t, r', c'))) : r'.weight c' < r.weight c := by
  obtain ⟨_ | ⟨u, ahead, c₁⟩, hr, h⟩ := bind_eq_ok.1 h
  · cases h
  · have := weight_raw hr
    dsimp only at h
    split at h
    · obtain ⟨_ | ⟨v, c₂⟩, hn, h⟩ := bind_eq_ok.1 h
      · cases h
        exact this
      · have := Lexicon.remaining_read hn
        cases h
        simp only [weight, Queue.size_push] at *
        omega
    · cases h
      exact this

end BracketReader
end IncrementalRegex
