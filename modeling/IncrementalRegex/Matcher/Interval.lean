import IncrementalRegex.Matcher.Basic

namespace IncrementalRegex

/-- The integers from `first` to `last`, both included. -/
structure Interval where
  first : Int
  last : Int
deriving DecidableEq, Repr

instance : ItemTest Interval Int where
  passes r x := r.first ≤ x && x ≤ r.last

end IncrementalRegex
