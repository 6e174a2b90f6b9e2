namespace IncrementalRegex.Unicode

/-- The code points `first`, `first + step`, `first + 2 * step` and so on up to `last`.  The tables
of runs hold the data of Unicode 17.0. -/
structure Run where
  first : Nat
  last : Nat
  step : Nat
deriving DecidableEq, Repr

def Run.contains (r : Run) (n : Nat) : Bool :=
  r.first ≤ n && n ≤ r.last && (n - r.first) % r.step == 0

/-- Whether some run of the table holds the code point of `c`. -/
def inRuns (runs : List Run) (c : Char) : Bool := runs.any (·.contains c.toNat)

end IncrementalRegex.Unicode
