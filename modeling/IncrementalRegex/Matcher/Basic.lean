import IncrementalRegex.Bounds
import IncrementalRegex.MatchState

namespace IncrementalRegex

/-- Tests of type `τ` that items of type `α` pass or fail. -/
class ItemTest (τ α : Type) where
  passes : τ → α → Bool

export ItemTest (passes)

/-- A part of a matcher that reads items itself. -/
inductive Leaf (α τ : Type) where
  | one (value : α)
  /-- Two tests are the same only if they carry the same tag, even where they ask the same. -/
  | satisfying (tag : Nat) (test : τ)
  | any
  /-- A fixed text: what has been read of it, the last item first, and what is left. -/
  | literal (before rest : List α)
deriving DecidableEq, Repr

/-- A tree of combinators over items of type `α` that reads one item at a time.  Elements, branches
and the body of a repetition are kept without progressions; what progresses are started copies of
them. -/
inductive Matcher (α τ : Type) where
  | leaf (state : MatchState) (leaf : Leaf α τ)
  /-- Each progression carries the number of elements up to and with the one it is in. -/
  | sequence (state : MatchState) (elements : List (Matcher α τ)) (live : List (Matcher α τ × Nat))
  | choice (state : MatchState) (branches : List (Matcher α τ)) (live : List (Matcher α τ))
  /-- `lower` is the lower bound in effect, 0 if the body matches without input; each progression
  carries the number of the repetition it is in, counted from 1. -/
  | repetition (state : MatchState) (body : Matcher α τ) (bounds : Bounds) (lower : Nat)
      (live : List (Matcher α τ × Nat))

namespace Matcher

variable {α τ : Type}

/-- The state last reported. -/
def state : Matcher α τ → MatchState
  | leaf s _ | sequence s _ _ | choice s _ _ | repetition s _ _ _ _ => s

def withState (s : MatchState) : Matcher α τ → Matcher α τ
  | leaf _ l => leaf s l
  | sequence _ es live => sequence s es live
  | choice _ bs live => choice s bs live
  | repetition _ t b n live => repetition s t b n live

/-- Drops the progressions at the root, and nothing below. -/
def withoutProgress : Matcher α τ → Matcher α τ
  | leaf s l => leaf s l
  | sequence s es _ => sequence s es []
  | choice s bs _ => choice s bs []
  | repetition s t b n _ => repetition s t b n []

end Matcher

namespace Leaf

variable {α τ : Type}

/-- No item has been read. -/
def start : Leaf α τ → MatchState × Leaf α τ
  | literal before rest =>
    let text := before.reverse ++ rest
    (if text.isEmpty then .finalMatch else .undecided, literal [] text)
  | l => (.undecided, l)

/-- Reads one item.  A literal that has been read to its end accepts nothing more. -/
def read [DecidableEq α] [ItemTest τ α] (x : α) : Leaf α τ → MatchState × Leaf α τ
  | one v => (if x = v then .finalMatch else .mismatch, one v)
  | satisfying tag t => (if passes t x then .finalMatch else .mismatch, satisfying tag t)
  | any => (.finalMatch, any)
  | literal before [] => (.mismatch, literal before [])
  | literal before (y :: rest) =>
    if x = y then (if rest.isEmpty then .finalMatch else .undecided, literal (y :: before) rest)
    else (.mismatch, literal before (y :: rest))

end Leaf

namespace Matcher

variable {α τ : Type}

mutual

/-- The matcher before any item: earlier progress is gone, and the parts that can read the first
item are started.  A sequence of nothing is a match that may go on. -/
def start : Matcher α τ → Matcher α τ
  | leaf _ l => leaf l.start.1 l.start.2
  | sequence _ es _ =>
    let reached := reach es 0
    sequence (if es.isEmpty then .matched else reached.1) es reached.2
  | choice _ bs _ => choice (.merge (bs.map state)) bs (startLive bs)
  | repetition _ t b _ _ =>
    if b.upper = 0 then repetition .finalMatch t b b.lower []
    else match t.state with
      | .finalMatch => repetition .finalMatch t b b.lower []
      | .mismatch => repetition .mismatch t b b.lower []
      | .undecided =>
        repetition (if b.lower = 0 then .matched else .undecided) t b b.lower [(start t, 1)]
      | .matched => repetition .matched t b 0 [(start t, 1)]
termination_by structural m => m

/-- Starts the elements of a sequence that can be reached without input; `before` elements precede
them.  The state is a mismatch if an element on the way cannot match, and undecided if one needs
input; else the end is reached, with a match that is final if nothing has been started. -/
def reach : List (Matcher α τ) → Nat → MatchState × List (Matcher α τ × Nat)
  | [], _ => (.finalMatch, [])
  | e :: es, before =>
    match e.state with
    | .mismatch => (.mismatch, [])
    | .undecided => (.undecided, [(start e, before + 1)])
    | .finalMatch => reach es (before + 1)
    | .matched =>
      match reach es (before + 1) with
      | (.mismatch, _) => (.mismatch, [])
      | (.undecided, live) => (.undecided, (start e, before + 1) :: live)
      | (_, live) => (.matched, (start e, before + 1) :: live)
termination_by structural es => es

/-- Starts the branches of a choice that can read an item. -/
def startLive : List (Matcher α τ) → List (Matcher α τ)
  | [] => []
  | b :: bs => if b.state.isLive then start b :: startLive bs else startLive bs
termination_by structural bs => bs

end

/-- A matcher as a part of another: started, but without progressions. -/
def idle (m : Matcher α τ) : Matcher α τ := m.start.withoutProgress

def one (value : α) : Matcher α τ := start (leaf .undecided (.one value))

def satisfying (tag : Nat) (test : τ) : Matcher α τ :=
  start (leaf .undecided (.satisfying tag test))

def any : Matcher α τ := start (leaf .undecided .any)

def literal (text : List α) : Matcher α τ := start (leaf .undecided (.literal [] text))

/-- All of `elements`, one after the other. -/
def concat (elements : List (Matcher α τ)) : Matcher α τ :=
  start (sequence .undecided (elements.map idle) [])

/-- Any one of `branches`. -/
def either (branches : List (Matcher α τ)) : Matcher α τ :=
  start (choice .undecided (branches.map idle) [])

def replicate (body : Matcher α τ) (bounds : Bounds) : Matcher α τ :=
  start (repetition .undecided body.idle bounds bounds.lower [])

end Matcher
end IncrementalRegex
