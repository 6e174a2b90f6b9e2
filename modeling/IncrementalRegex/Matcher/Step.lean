import IncrementalRegex.Matcher.Equality

namespace IncrementalRegex.Matcher

variable {α τ : Type} [DecidableEq α] [DecidableEq τ] [ItemTest τ α]

/-- What a progression of a sequence of `elements` contributes once it has read an item. -/
def sequenceOutcome (elements : List (Matcher α τ)) : Matcher α τ × Nat → MatchState
  | (m, i) =>
    match m.state with
    | .matched => if (reach (elements.drop i) i).1.isMatch then .matched else .undecided
    | .finalMatch => (reach (elements.drop i) i).1
    | s => s

/-- The progressions that a progression which has just matched adds: the elements that follow it. -/
def sequenceSpawn (elements : List (Matcher α τ)) : Matcher α τ × Nat → List (Matcher α τ × Nat)
  | (m, i) => if m.state.isMatch then (reach (elements.drop i) i).2 else []

/-- What a progression in repetition number `count` contributes once it has read an item. -/
def repetitionOutcome (bounds : Bounds) (lower : Nat) : Matcher α τ × Nat → MatchState
  | (m, count) =>
    match m.state with
    | .matched => if lower ≤ count then .matched else .undecided
    | .finalMatch =>
      if count < lower then .undecided
      else if count = bounds.upper then .finalMatch
      else .matched
    | s => s

/-- The progression as it goes on: one that is spent starts again as the next repetition, if there
is one. -/
def repetitionKeep (bounds : Bounds) (lower : Nat) : Matcher α τ × Nat → Option (Matcher α τ × Nat)
  | (m, count) =>
    match m.state with
    | .matched | .undecided => some (m, count)
    | .finalMatch => if count = bounds.upper then none else some (m.start, bounds.next lower count)
    | .mismatch => none

/-- The next repetition, started beside one that has matched and may go on. -/
def repetitionSpawn (body : Matcher α τ) (bounds : Bounds) (lower : Nat) :
    Matcher α τ × Nat → Option (Matcher α τ × Nat)
  | (m, count) =>
    if m.state = .matched ∧ count < bounds.upper then
      some (body.start, bounds.next lower count)
    else none

mutual

/-- Reads one item, whatever the state last reported. -/
def advance (x : α) : Matcher α τ → Matcher α τ
  | leaf _ l => leaf (l.read x).1 (l.read x).2
  | sequence _ es live =>
    let moved := readNumbered x live
    sequence (.merge (moved.map (sequenceOutcome es))) es
      (moved.filter (·.1.state.isLive) ++ moved.flatMap (sequenceSpawn es)).eraseDups
  | choice _ bs live =>
    let moved := readAll x live
    choice (.merge (moved.map state)) bs (moved.filter (·.state.isLive))
  | repetition _ t b n live =>
    let moved := readNumbered x live
    repetition (.merge (moved.map (repetitionOutcome b n))) t b n
      (moved.filterMap (repetitionKeep b n) ++ moved.filterMap (repetitionSpawn t b n)).eraseDups
termination_by structural m => m

/-- Reads one item in every matcher, by the rule of `read`. -/
def readAll (x : α) : List (Matcher α τ) → List (Matcher α τ)
  | [] => []
  | m :: ms => (if m.state.isLive then advance x m else m.withState .mismatch) :: readAll x ms
termination_by structural ms => ms

/-- Reads one item in every numbered matcher, by the rule of `read`. -/
def readNumbered (x : α) : List (Matcher α τ × Nat) → List (Matcher α τ × Nat)
  | [] => []
  | (m, i) :: ms =>
    ((if m.state.isLive then advance x m else m.withState .mismatch), i) :: readNumbered x ms
termination_by structural ms => ms

end

/-- Reads one item.  After a final match or a mismatch every item is a mismatch, and nothing but the
state changes. -/
def read (m : Matcher α τ) (x : α) : Matcher α τ :=
  if m.state.isLive then advance x m else m.withState .mismatch

theorem readAll_eq_map (x : α) (ms : List (Matcher α τ)) :
    readAll x ms = ms.map (read · x) := by
  induction ms with
  | nil => simp [readAll]
  | cons m ms ih => simp [readAll, read, ih]

theorem readNumbered_eq_map (x : α) (ms : List (Matcher α τ × Nat)) :
    readNumbered x ms = ms.map fun p => (read p.1 x, p.2) := by
  induction ms with
  | nil => simp [readNumbered]
  | cons p ms ih => simp [readNumbered, read, ih]

/-- The matcher after each item in turn, the first included and the one before it not. -/
def trace (step : Matcher α τ → α → Matcher α τ) (m : Matcher α τ) : List α → List (Matcher α τ)
  | [] => []
  | x :: xs => step m x :: trace step (step m x) xs

def feed (m : Matcher α τ) (input : List α) : Matcher α τ := input.foldl read m

/-- The states reported for the items of `input` in turn. -/
def states (m : Matcher α τ) (input : List α) : List MatchState :=
  (trace read m input).map state

/-- The states of a run from the start that reads on after terminal states. -/
def rawStates (m : Matcher α τ) (input : List α) : List MatchState :=
  m.start.state :: (trace (fun m x => advance x m) m.start input).map state

/-- Whether `input` as a whole matches, from the start. -/
def accepts (m : Matcher α τ) (input : List α) : Bool := (m.start.feed input).state.isMatch

end IncrementalRegex.Matcher
