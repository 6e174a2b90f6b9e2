import IncrementalRegex.Bounds
import IncrementalRegex.Token.Lexicon

namespace IncrementalRegex.Brace

/-- The largest count that a pattern may spell out. -/
def largestWritten : Nat := 0x7fff

/-- The next token.  The end is a fault here, since the brace is still open. -/
def next (d : Dialect) (c : Cursor) : Except PatternError (Token × Cursor) := do
  match ← (Lexicon.brace d).read c with
  | some p => return p
  | none => c.fail .brace

def count (t : Token) (c : Cursor) : Except PatternError Nat :=
  if t.hasKind .count && t.count ≤ largestWritten then .ok t.count else c.fail .repetitionCount

def bounds (lower upper : Nat) (c : Cursor) : Except PatternError (Option (Bounds × Cursor)) :=
  match Bounds.between? lower upper with
  | some b => .ok (some (b, c))
  | none => c.fail .repetitionCount

/-- The bounds up to and with the closing brace: one count, a count and a comma, or two counts with
a comma between them.  There is nothing to read only where the text has ended. -/
def read (d : Dialect) (c : Cursor) : Except PatternError (Option (Bounds × Cursor)) :=
  if c.atEnd then .ok none
  else do
    let (t, c) ← next d c
    let lower ← count t c
    let (t, c) ← next d c
    match t.kind with
    | .rBrace => bounds lower lower c
    | .comma =>
      let (t, c) ← next d c
      if t.hasKind .rBrace then bounds lower unbounded c
      else
        let upper ← count t c
        let (t, c) ← next d c
        if t.hasKind .rBrace then bounds lower upper c else c.fail .repetitionCount
    | _ => c.fail .repetitionCount

theorem remaining_next {d : Dialect} {c c' : Cursor} {t : Token} (h : next d c = .ok (t, c')) :
    c'.remaining < c.remaining := by
  simp only [next, bind_eq_ok] at h
  obtain ⟨_ | p, hr, h⟩ := h
  · cases h
  · cases h
    exact Lexicon.remaining_read hr

theorem cursor_bounds {lower upper : Nat} {c c' : Cursor} {b : Bounds}
    (h : bounds lower upper c = .ok (some (b, c'))) : c' = c := by
  unfold bounds at h
  split at h <;> cases h
  rfl

theorem remaining_read {d : Dialect} {c c' : Cursor} {b : Bounds}
    (h : read d c = .ok (some (b, c'))) : c'.remaining < c.remaining := by
  unfold read at h
  split at h
  · cases h
  · simp only [bind_eq_ok] at h
    obtain ⟨⟨_, c₁⟩, h₁, _, -, ⟨u, c₂⟩, h₂, h⟩ := h
    have := remaining_next h₁
    have := remaining_next h₂
    dsimp only at h
    cases hu : u.kind <;> rw [hu] at h
    case rBrace =>
      have := cursor_bounds h
      grind
    case comma =>
      obtain ⟨⟨_, c₃⟩, h₃, h⟩ := bind_eq_ok.1 h
      have := remaining_next h₃
      dsimp only at h
      split at h
      · have := cursor_bounds h
        grind
      · simp only [bind_eq_ok] at h
        obtain ⟨_, -, ⟨_, c₄⟩, h₄, h⟩ := h
        have := remaining_next h₄
        dsimp only at h
        split at h
        · have := cursor_bounds h
          grind
        · cases h
    all_goals cases h

end IncrementalRegex.Brace
