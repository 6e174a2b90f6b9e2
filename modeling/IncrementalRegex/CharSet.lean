import IncrementalRegex.CharClass
import IncrementalRegex.Unicode.CaseMap

namespace IncrementalRegex

structure CharSet where
  /-- Whether a character also counts as a member if one of its case variants does. -/
  ignoreCase : Bool
  negated : Bool := false
  chars : List Char := []
  ranges : List (Char × Char) := []
  /-- Classes, or with `true` all characters outside of one. -/
  classes : List (CharClass × Bool) := []
deriving DecidableEq, Repr

namespace CharSet

def negate (s : CharSet) : CharSet := { s with negated := true }

def addChar (s : CharSet) (c : Char) : CharSet := { s with chars := c :: s.chars }

/-- Adds the characters from `first` to `last`, both included. -/
def addRange (s : CharSet) (first last : Char) : Except ErrorKind CharSet :=
  if last < first then .error .range else .ok { s with ranges := (first, last) :: s.ranges }

def addClass (s : CharSet) (class' : CharClass) (outside : Bool) : CharSet :=
  { s with classes := (class', outside) :: s.classes }

/-- Whether some item of the set holds `c`, case and negation apart. -/
def lists (s : CharSet) (c : Char) : Bool :=
  s.chars.contains c || s.ranges.any (fun r => r.1 ≤ c && c ≤ r.2) ||
    s.classes.any (fun k => k.1.contains c != k.2)

def contains (s : CharSet) (c : Char) : Bool :=
  (s.lists c || (s.ignoreCase &&
    (Unicode.toLower c ++ Unicode.toUpper c).any (fun v => v != c && s.lists v))) != s.negated

end CharSet
end IncrementalRegex
