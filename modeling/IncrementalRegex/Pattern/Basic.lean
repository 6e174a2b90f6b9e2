import IncrementalRegex.CharSet
import IncrementalRegex.Matcher.Basic

namespace IncrementalRegex

/-- A test of a single character. -/
inductive CharTest where
  /-- A member of a class, or with `true` any other character. -/
  | inClass (class' : CharClass) (outside : Bool)
  | notLineEnd
  | inSet (set : CharSet)
deriving DecidableEq, Repr

def isLineEnd (c : Char) : Bool := c = '\n' || c = '\r' || c = '\u2028' || c = '\u2029'

instance : ItemTest CharTest Char where
  passes
    | .inClass k outside, c => k.contains c != outside
    | .notLineEnd, c => !isLineEnd c
    | .inSet s, c => s.contains c

/-- What the tokens of a pattern say, before there is a matcher for it. -/
inductive Pattern where
  | one (c : Char)
  | text (cs : List Char)
  | any
  | satisfying (test : CharTest)
  | concat (parts : List Pattern)
  | either (branches : List Pattern)
  | repeated (part : Pattern) (bounds : Bounds)
deriving Repr

namespace Pattern

/-- The single one of some patterns, or else all of them put together. -/
def join (combine : List Pattern → Pattern) : List Pattern → Pattern
  | [p] => p
  | ps => combine ps

def ofText : List Char → Pattern
  | [c] => one c
  | cs => text cs

mutual

/-- The matcher of a pattern.  Its tests are tagged with the numbers from `tag` on; the first number
not used is returned. -/
def matcher (tag : Nat) : Pattern → Matcher Char CharTest × Nat
  | one c => (.one c, tag)
  | text cs => (.literal cs, tag)
  | any => (.any, tag)
  | satisfying t => (.satisfying tag t, tag + 1)
  | concat ps =>
    let ms := matchers tag ps
    (.concat ms.1, ms.2)
  | either ps =>
    let ms := matchers tag ps
    (.either ms.1, ms.2)
  | repeated p b =>
    let m := matcher tag p
    (.replicate m.1 b, m.2)
termination_by structural p => p

def matchers (tag : Nat) : List Pattern → List (Matcher Char CharTest) × Nat
  | [] => ([], tag)
  | p :: ps =>
    let m := matcher tag p
    let ms := matchers m.2 ps
    (m.1 :: ms.1, ms.2)
termination_by structural ps => ps

end

end Pattern
end IncrementalRegex
