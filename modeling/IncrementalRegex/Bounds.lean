namespace IncrementalRegex

/-- The largest count, which as an upper bound stands for no bound at all. -/
def unbounded : Nat := UInt64.size - 1

/-- How often, at least and at most, something is repeated. -/
structure Bounds where
  lower : Nat
  upper : Nat
  lower_le_upper : lower ≤ upper
  upper_le_unbounded : upper ≤ unbounded
deriving DecidableEq, Repr

namespace Bounds

def between? (lower upper : Nat) : Option Bounds :=
  if h : lower ≤ upper ∧ upper ≤ unbounded then some ⟨lower, upper, h.1, h.2⟩ else none

/-- As often as `count` says; a count beyond the largest counts as the largest. -/
def exactly (count : Nat) : Bounds :=
  ⟨min count unbounded, min count unbounded, Nat.le_refl _, Nat.min_le_right ..⟩

def atLeast (lower : Nat) : Bounds :=
  ⟨min lower unbounded, unbounded, Nat.min_le_right .., Nat.le_refl _⟩

def zeroOrOne : Bounds := ⟨0, 1, by decide, by decide⟩

def isUnbounded (b : Bounds) : Bool := b.upper == unbounded

/-- The bounds as they are written in a pattern. -/
def text (b : Bounds) : String :=
  if b.isUnbounded then "\x7b" ++ toString b.lower ++ ",\x7d"
  else "\x7b" ++ toString b.lower ++ "," ++ toString b.upper ++ "\x7d"

/-- The number of the repetition after number `count`.  Without an upper bound the numbers from
`lower` on (from 1 on, if that is more) make no difference, and stay at the first of them. -/
def next (b : Bounds) (lower count : Nat) : Nat :=
  if b.isUnbounded then min (min (count + 1) unbounded) (max lower 1)
  else min (count + 1) unbounded

end Bounds
end IncrementalRegex
