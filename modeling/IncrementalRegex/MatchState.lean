namespace IncrementalRegex

/-- What a matcher knows about the items it has read so far. -/
inductive MatchState where
  /-- The items read match, and more items may still lead to a longer match. -/
  | matched
  /-- The items read match, and nothing longer can. -/
  | finalMatch
  /-- Neither the items read nor anything longer can match. -/
  | mismatch
  /-- The items read do not match, but something longer may. -/
  | undecided
deriving DecidableEq, Repr, Inhabited

namespace MatchState

def isMatch : MatchState → Bool
  | matched | finalMatch => true
  | mismatch | undecided => false

/-- Further items can still change the answer. -/
def isLive : MatchState → Bool
  | matched | undecided => true
  | finalMatch | mismatch => false

def isTerminal (s : MatchState) : Bool := !s.isLive

def text : MatchState → String
  | matched => "MATCH"
  | finalMatch => "FINAL_MATCH"
  | mismatch => "MISMATCH"
  | undecided => "UNDECIDED"

/-- The state of a set of parallel progressions: a final match beside one that may go on is a match
that may go on. -/
def merge (states : List MatchState) : MatchState :=
  if matched ∈ states then matched
  else if finalMatch ∈ states then
    if undecided ∈ states then matched else finalMatch
  else if undecided ∈ states then undecided
  else mismatch

end MatchState
end IncrementalRegex
