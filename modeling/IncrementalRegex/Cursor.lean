import IncrementalRegex.Error

namespace IncrementalRegex

/-- The largest value that digits of limited length are read as. -/
def largestCode : Nat := UInt32.size - 1

/-- The largest value that a run of digits is read as. -/
def largestCount : Nat := UInt64.size - 1

/-- The value of an ASCII digit or letter as a digit in `radix`. -/
def digitValue? (radix : Nat) (c : Char) : Option Nat :=
  let value :=
    if c.isDigit then some (c.toNat - '0'.toNat)
    else if 'a' ≤ c && c ≤ 'z' then some (c.toNat - 'a'.toNat + 10)
    else if 'A' ≤ c && c ≤ 'Z' then some (c.toNat - 'A'.toNat + 10)
    else none
  value.filter (· < radix)

/-- The number that digits in `radix` stand for, the first digit the most significant. -/
def ofDigits (radix : Nat) (digits : List Nat) : Nat :=
  digits.foldl (fun n d => n * radix + d) 0

/-- The digits at the start of a text, and what follows them. -/
def spanDigits (radix : Nat) : List Char → List Nat × List Char
  | [] => ([], [])
  | c :: cs =>
    match digitValue? radix c with
    | some d => (d :: (spanDigits radix cs).1, (spanDigits radix cs).2)
    | none => ([], c :: cs)

/-- A place in a pattern.  Reading returns the place after what was read, so going back is keeping
the earlier place. -/
structure Cursor where
  /-- What has been read, the last character first. -/
  before : List Char
  rest : List Char
deriving DecidableEq, Repr

namespace Cursor

def start (text : List Char) : Cursor := ⟨[], text⟩

/-- The number of characters read. -/
def position (c : Cursor) : Nat := c.before.length

/-- The number of characters that are left. -/
def remaining (c : Cursor) : Nat := c.rest.length

def atEnd (c : Cursor) : Bool := c.rest.isEmpty

def peek? (c : Cursor) : Option Char := c.rest.head?

def next? (c : Cursor) : Option (Char × Cursor) :=
  match c.rest with
  | [] => none
  | x :: xs => some (x, ⟨x :: c.before, xs⟩)

/-- One character back; at the start nothing happens. -/
def back (c : Cursor) : Cursor :=
  match c.before with
  | [] => c
  | x :: xs => ⟨xs, x :: c.rest⟩

/-- The place after the next `n` characters, or the end. -/
def advance (c : Cursor) (n : Nat) : Cursor :=
  ⟨(c.rest.take n).reverse ++ c.before, c.rest.drop n⟩

/-- The place after the first `n` characters of the text, or the end. -/
def seek (c : Cursor) (n : Nat) : Cursor := (start (c.before.reverse ++ c.rest)).advance n

/-- The number that the digits here stand for, as far as counts reach. -/
def number? (c : Cursor) (radix : Nat) : Option (Nat × Cursor) :=
  match (spanDigits radix c.rest).1 with
  | [] => none
  | ds => some (min (ofDigits radix ds) largestCount, c.advance ds.length)

/-- The number whose first digit, `first`, has just been read. -/
def numberAfter (c : Cursor) (first : Char) (radix : Nat) : Nat × Cursor :=
  let ds := (spanDigits radix c.rest).1
  (min (ofDigits radix ((digitValue? radix first).toList ++ ds)) largestCount, c.advance ds.length)

/-- The number of exactly `n` digits, if that many are here. -/
def digits? (c : Cursor) (n radix : Nat) : Option (Nat × Cursor) :=
  let ds := (c.rest.take n).filterMap (digitValue? radix)
  if ds.length = n then some (min (ofDigits radix ds) largestCode, c.advance n) else none

/-- What precedes the first `delimiter`, if there is one.  An empty delimiter is never found. -/
def findDelimiter (delimiter : List Char) : List Char → Option (List Char)
  | [] => none
  | x :: xs =>
    if !delimiter.isEmpty && delimiter.isPrefixOf (x :: xs) then some []
    else (findDelimiter delimiter xs).map (x :: ·)

/-- The text up to the first `delimiter`, the place after the delimiter, and whether there is one;
the rest of the text and its end, if not. -/
def through (c : Cursor) (delimiter : List Char) : List Char × Bool × Cursor :=
  match findDelimiter delimiter c.rest with
  | some span => (span, true, c.advance (span.length + delimiter.length))
  | none => (c.rest, false, c.advance c.rest.length)

/-- A fault found here. -/
def fail {β : Type} (c : Cursor) (kind : ErrorKind) : Except PatternError β :=
  .error ⟨kind, c.position⟩

theorem remaining_next {c c' : Cursor} {x : Char} (h : c.next? = some (x, c')) :
    c'.remaining + 1 = c.remaining := by
  unfold next? at h
  split at h <;> simp_all [remaining]
  grind

theorem remaining_advance (c : Cursor) (n : Nat) : (c.advance n).remaining ≤ c.remaining := by
  simp [advance, remaining]

theorem remaining_numberAfter (c : Cursor) (x : Char) (r : Nat) :
    (c.numberAfter x r).2.remaining ≤ c.remaining := remaining_advance ..

theorem remaining_digits {c c' : Cursor} {n r v : Nat} (h : c.digits? n r = some (v, c')) :
    c'.remaining ≤ c.remaining := by
  simp only [digits?] at h
  split at h <;> simp_all
  exact h.2 ▸ remaining_advance ..

theorem remaining_through (c : Cursor) (d : List Char) :
    (c.through d).2.2.remaining ≤ c.remaining := by
  unfold through
  split <;> exact remaining_advance ..

end Cursor
end IncrementalRegex
