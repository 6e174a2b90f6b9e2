import IncrementalRegex.Matcher.Interval
import IncrementalRegex.Proofs.Repetition
import IncrementalRegex.Proofs.Sequence
import IncrementalRegex.Proofs.Tree

namespace IncrementalRegex

open MatchState

variable {α τ : Type}

/-- All demand on a tree is that no least number of repetitions is the largest count. -/
def Matcher.Demand.limited : Matcher.Demand τ where
  bounds b := b.lower < unbounded

namespace Matcher.Plain

/-- What a progression in repetition number `count` contributes once it has read an item.  The
largest count as the upper bound is none. -/
def repetitionOutcome (bounds : Bounds) (lower : Nat) : Matcher α τ × Nat → MatchState
  | (m, count) =>
    match m.state with
    | .matched => if lower ≤ count then .matched else .undecided
    | .finalMatch =>
      if count < lower then .undecided
      else if ¬bounds.isUnbounded ∧ count = bounds.upper then .finalMatch
      else .matched
    | s => s

/-- The progression as it goes on; in place of one that is spent there is a new one. -/
def repetitionKeep (body : Matcher α τ) (bounds : Bounds) :
    Matcher α τ × Nat → Option (Matcher α τ × Nat)
  | (m, count) =>
    match m.state with
    | .matched | .undecided => some (m, count)
    | .finalMatch =>
      if ¬bounds.isUnbounded ∧ count = bounds.upper then none else some (body.start, count + 1)
    | .mismatch => none

def repetitionSpawn (body : Matcher α τ) (bounds : Bounds) :
    Matcher α τ × Nat → Option (Matcher α τ × Nat)
  | (m, count) =>
    if m.state = .matched ∧ (bounds.isUnbounded ∨ count < bounds.upper) then
      some (body.start, count + 1)
    else none

def repetitionOffspring (t : Matcher α τ) (b : Bounds) (p : Matcher α τ × Nat) :
    List (Matcher α τ × Nat) :=
  (repetitionKeep t b p).toList ++ (repetitionSpawn t b p).toList

variable [DecidableEq α] [ItemTest τ α]

mutual

/-- Reads an item.  No progression is dropped for being there twice, repetitions are counted without
end, and the next repetition is always a new copy of the body. -/
def advance (x : α) : Matcher α τ → Matcher α τ
  | leaf _ l => leaf (l.read x).1 (l.read x).2
  | sequence _ es live =>
    let moved := readNumbered x live
    sequence (.merge (moved.map (sequenceOutcome es))) es
      (moved.filter (·.1.state.isLive) ++ moved.flatMap (sequenceSpawn es))
  | choice _ bs live =>
    let moved := readAll x live
    choice (.merge (moved.map state)) bs (moved.filter (·.state.isLive))
  | repetition _ t b n live =>
    let moved := readNumbered x live
    repetition (.merge (moved.map (repetitionOutcome b n))) t b n
      (moved.filterMap (repetitionKeep t b) ++ moved.filterMap (repetitionSpawn t b))
termination_by structural m => m

def readAll (x : α) : List (Matcher α τ) → List (Matcher α τ)
  | [] => []
  | m :: ms => (if m.state.isLive then advance x m else m.withState .mismatch) :: readAll x ms
termination_by structural ms => ms

def readNumbered (x : α) : List (Matcher α τ × Nat) → List (Matcher α τ × Nat)
  | [] => []
  | (m, i) :: ms =>
    ((if m.state.isLive then advance x m else m.withState .mismatch), i) :: readNumbered x ms
termination_by structural ms => ms

end

def read (m : Matcher α τ) (x : α) : Matcher α τ :=
  if m.state.isLive then advance x m else m.withState .mismatch

theorem readAll_eq_map (x : α) (ms : List (Matcher α τ)) : readAll x ms = ms.map (read · x) := by
  induction ms with
  | nil => simp [readAll]
  | cons m ms ih => simp [readAll, read, ih]

theorem readNumbered_eq_map (x : α) (ms : List (Matcher α τ × Nat)) :
    readNumbered x ms = ms.map fun p => (read p.1 x, p.2) := by
  induction ms with
  | nil => simp [readNumbered]
  | cons p ms ih => simp [readNumbered, read, ih]

theorem advance_sequence (es : List (Matcher α τ)) (x : α) (s : MatchState)
    (live : List (Matcher α τ × Nat)) :
    ∃ live', advance x (sequence s es live) =
        sequence (.merge ((readNumbered x live).map (sequenceOutcome es))) es live' ∧
      ∀ q, q ∈ live' ↔ ∃ p ∈ readNumbered x live, q ∈ sequenceOffspring es p := by
  refine ⟨_, by rw [advance], ?_⟩
  intro q
  simp only [List.mem_append, List.mem_filter, List.mem_flatMap, sequenceOffspring]
  grind

theorem advance_repetition (t : Matcher α τ) (b : Bounds) (n : Nat) (x : α) (s : MatchState)
    (live : List (Matcher α τ × Nat)) :
    ∃ live', advance x (repetition s t b n live) = repetition
        (.merge ((readNumbered x live).map (repetitionOutcome b n))) t b n live' ∧
      ∀ q, q ∈ live' ↔ ∃ p ∈ readNumbered x live, q ∈ repetitionOffspring t b p := by
  refine ⟨_, by rw [advance], ?_⟩
  intro q
  simp only [List.mem_append, List.mem_filterMap, repetitionOffspring, Option.mem_toList]
  grind

/-- The states reported for the items of `input` in turn. -/
def states (m : Matcher α τ) (input : List α) : List MatchState :=
  (trace read m input).map state

/-- The states of a run from the start that reads on after terminal states. -/
def rawStates (m : Matcher α τ) (input : List α) : List MatchState :=
  m.start.state :: (trace (fun m x => advance x m) m.start input).map state

end Matcher.Plain

/-- What there is on either side has its like on the other, in whatever order and however often. -/
structure Mutual {β : Type} (R : β → β → Prop) (xs ys : List β) : Prop where
  left : ∀ x ∈ xs, ∃ y ∈ ys, R x y
  right : ∀ y ∈ ys, ∃ x ∈ xs, R x y

namespace Mutual

variable {β : Type} {R : β → β → Prop} {xs ys : List β}

theorem refl (h : ∀ x ∈ xs, R x x) : Mutual R xs xs where
  left x hx := ⟨x, hx, h x hx⟩
  right x hx := ⟨x, hx, h x hx⟩

theorem nil : Mutual R [] [] := refl (List.forall_mem_nil _)

theorem single {x y : β} (h : R x y) : Mutual R [x] [y] := by
  constructor <;> simpa using h

theorem append {xs' ys' : List β} (h : Mutual R xs ys) (h' : Mutual R xs' ys') :
    Mutual R (xs ++ xs') (ys ++ ys') where
  left x hx := by
    rcases List.mem_append.mp hx with hx | hx
    · obtain ⟨y, hy, hr⟩ := h.left x hx
      exact ⟨y, List.mem_append_left _ hy, hr⟩
    · obtain ⟨y, hy, hr⟩ := h'.left x hx
      exact ⟨y, List.mem_append_right _ hy, hr⟩
  right y hy := by
    rcases List.mem_append.mp hy with hy | hy
    · obtain ⟨x, hx, hr⟩ := h.right y hy
      exact ⟨x, List.mem_append_left _ hx, hr⟩
    · obtain ⟨x, hx, hr⟩ := h'.right y hy
      exact ⟨x, List.mem_append_right _ hx, hr⟩

theorem map {f g : β → β} (h : Mutual R xs ys) (hf : ∀ x y, R x y → R (f x) (g y)) :
    Mutual R (xs.map f) (ys.map g) := by
  constructor
  · intro z hz
    obtain ⟨x, hx, rfl⟩ := List.mem_map.mp hz
    obtain ⟨y, hy, hr⟩ := h.left x hx
    exact ⟨g y, List.mem_map_of_mem hy, hf x y hr⟩
  · intro z hz
    obtain ⟨y, hy, rfl⟩ := List.mem_map.mp hz
    obtain ⟨x, hx, hr⟩ := h.right y hy
    exact ⟨f x, List.mem_map_of_mem hx, hf x y hr⟩

/-- What comes of each is told by its like. -/
theorem offspring {f g : β → List β} {xs' ys' : List β} (h : Mutual R xs ys)
    (hf : ∀ x y, R x y → Mutual R (f x) (g y)) (hx : ∀ q, q ∈ xs' ↔ ∃ x ∈ xs, q ∈ f x)
    (hy : ∀ q, q ∈ ys' ↔ ∃ y ∈ ys, q ∈ g y) : Mutual R xs' ys' := by
  constructor
  · intro q hq
    obtain ⟨x, hxs, hq⟩ := (hx q).mp hq
    obtain ⟨y, hys, hr⟩ := h.left x hxs
    obtain ⟨q', hq', hr'⟩ := (hf x y hr).left q hq
    exact ⟨q', (hy q').mpr ⟨y, hys, hq'⟩, hr'⟩
  · intro q hq
    obtain ⟨y, hys, hq⟩ := (hy q).mp hq
    obtain ⟨x, hxs, hr⟩ := h.right y hys
    obtain ⟨q', hq', hr'⟩ := (hf x y hr).right q hq
    exact ⟨q', (hx q').mpr ⟨x, hxs, hq'⟩, hr'⟩

/-- Order and number make no difference to what progressions report together. -/
theorem merge_eq {f g : β → MatchState} (h : Mutual R xs ys) (hf : ∀ x y, R x y → f x = g y) :
    merge (xs.map f) = merge (ys.map g) := by
  apply eq_of_aspects
  intro a
  apply Bool.eq_iff_iff.mpr
  simp only [aspect_merge, List.mem_map, exists_exists_and_eq_and]
  constructor
  · intro hs
    obtain ⟨x, hx, ha⟩ := hs
    obtain ⟨y, hy, hr⟩ := h.left x hx
    exact ⟨y, hy, hf x y hr ▸ ha⟩
  · intro hs
    obtain ⟨y, hy, ha⟩ := hs
    obtain ⟨x, hx, hr⟩ := h.right y hy
    exact ⟨x, hx, (hf x y hr).symm ▸ ha⟩

end Mutual

namespace Matcher

theorem start_of_built {d : Demand τ} {m : Matcher α τ} (h : m.Built d) : m.start = m := by
  cases h <;> exact start_start _

variable [DecidableEq α] [DecidableEq τ] [ItemTest τ α]

/-- Matchers related by `S` report the same states, and stay related while the first reads as
matchers do and the second reads as the plain engine does. -/
structure Bisimulation (S : Matcher α τ → Matcher α τ → Prop) : Prop where
  state : ∀ {m m'}, S m m' → m.state = m'.state
  withState : ∀ {m m'} (s), S m m' → S (m.withState s) (m'.withState s)
  advance : ∀ {m m'} (x), S m m' → S (advance x m) (Plain.advance x m')

def Bisimilar (m m' : Matcher α τ) : Prop := ∃ S, Bisimulation S ∧ S m m'

namespace Bisimilar

variable {m m' : Matcher α τ}

theorem state_eq (h : Bisimilar m m') : m.state = m'.state := by
  obtain ⟨S, hS, hm⟩ := h
  exact hS.state hm

theorem advance (h : Bisimilar m m') (x : α) : Bisimilar (advance x m) (Plain.advance x m') := by
  obtain ⟨S, hS, hm⟩ := h
  exact ⟨S, hS, hS.advance x hm⟩

theorem read (h : Bisimilar m m') (x : α) : Bisimilar (m.read x) (Plain.read m' x) := by
  obtain ⟨S, hS, hm⟩ := h
  refine ⟨S, hS, ?_⟩
  unfold Matcher.read Plain.read
  rw [hS.state hm]
  split_ifs
  · exact hS.advance x hm
  · exact hS.withState _ hm

theorem trace_eq {step step' : Matcher α τ → α → Matcher α τ}
    (hstep : ∀ {m m'}, Bisimilar m m' → ∀ x, Bisimilar (step m x) (step' m' x))
    (h : Bisimilar m m') (input : List α) :
    (trace step m input).map state = (trace step' m' input).map state := by
  induction input generalizing m m' with
  | nil => rfl
  | cons x input ih =>
    have hx := hstep h x
    rw [trace, trace, List.map_cons, List.map_cons, hx.state_eq, ih hx]

end Bisimilar

/-- A leaf reads the same way on both sides. -/
theorem bisimilar_leaf (s : MatchState) (l : Leaf α τ) : Bisimilar (leaf s l) (leaf s l) := by
  refine ⟨fun m m' => m = m' ∧ ∃ s l, m = leaf s l, ?_, rfl, s, l, rfl⟩
  constructor
  · intro m m' h
    rw [h.1]
  · intro m m' s h
    obtain ⟨rfl, _, l, rfl⟩ := h
    exact ⟨rfl, s, l, rfl⟩
  · intro m m' x h
    obtain ⟨rfl, _, l, rfl⟩ := h
    exact ⟨rfl, _, _, rfl⟩

/-- Both sides are the same combinator over progressions that match up. -/
inductive Combined {β : Type} (combinator : MatchState → List β → Matcher α τ)
    (R : β → β → Prop) : Matcher α τ → Matcher α τ → Prop where
  | mk (s : MatchState) {live live' : List β} (progress : Mutual R live live') :
    Combined combinator R (combinator s live) (combinator s live')

theorem bisimulation_combined {β : Type} {combinator : MatchState → List β → Matcher α τ}
    {R : β → β → Prop} (hstate : ∀ s live, (combinator s live).state = s)
    (hwith : ∀ s s' live, (combinator s live).withState s' = combinator s' live)
    (hstep : ∀ x s {live live'}, Mutual R live live' →
      Combined combinator R (advance x (combinator s live))
        (Plain.advance x (combinator s live'))) :
    Bisimulation (Combined combinator R) where
  state h := by
    obtain ⟨s, progress⟩ := h
    rw [hstate, hstate]
  withState s' h := by
    obtain ⟨s, progress⟩ := h
    rw [hwith, hwith]
    exact .mk s' progress
  advance x h := by
    obtain ⟨s, progress⟩ := h
    exact hstep x s progress

theorem mutual_readNumbered {R : Matcher α τ × Nat → Matcher α τ × Nat → Prop}
    (hR : ∀ x p p', R p p' → R (p.1.read x, p.2) (Plain.read p'.1 x, p'.2)) (x : α)
    {live live' : List (Matcher α τ × Nat)} (h : Mutual R live live') :
    Mutual R (readNumbered x live) (Plain.readNumbered x live') := by
  rw [readNumbered_eq_map, Plain.readNumbered_eq_map]
  exact h.map (hR x)

/-- Alike progressions, in the same element. -/
def InElement (p p' : Matcher α τ × Nat) : Prop := Bisimilar p.1 p'.1 ∧ p.2 = p'.2

theorem InElement.read {p p' : Matcher α τ × Nat} (h : InElement p p') (x : α) :
    InElement (p.1.read x, p.2) (Plain.read p'.1 x, p'.2) := ⟨h.1.read x, h.2⟩

theorem mutual_reach {es : List (Matcher α τ)} (h : ∀ e ∈ es, Bisimilar e.start e.start) (i : Nat) :
    Mutual InElement (reach es i).2 (reach es i).2 := by
  apply Mutual.refl
  intro p hp
  obtain ⟨e, he, hstart⟩ := start_of_mem_reach hp
  exact ⟨hstart ▸ h e he, rfl⟩

theorem sequenceOutcome_eq (es : List (Matcher α τ)) {p p' : Matcher α τ × Nat}
    (h : InElement p p') : sequenceOutcome es p = sequenceOutcome es p' := by
  obtain ⟨m, i⟩ := p
  obtain ⟨m', i'⟩ := p'
  obtain ⟨hm, rfl⟩ := h
  simp only [sequenceOutcome, hm.state_eq]

theorem mutual_sequenceOffspring {es : List (Matcher α τ)}
    (he : ∀ e ∈ es, Bisimilar e.start e.start) {p p' : Matcher α τ × Nat} (h : InElement p p') :
    Mutual InElement (sequenceOffspring es p) (sequenceOffspring es p') := by
  have hp := h
  obtain ⟨m, i⟩ := p
  obtain ⟨m', i'⟩ := p'
  obtain ⟨hm, rfl⟩ := h
  have hstate : m.state = m'.state := hm.state_eq
  unfold sequenceOffspring sequenceSpawn
  dsimp only
  rw [hstate]
  apply Mutual.append
  · split_ifs
    · exact .single hp
    · exact .nil
  · split_ifs
    · exact mutual_reach (fun e hd => he e (List.mem_of_mem_drop hd)) i
    · exact .nil

theorem bisimulation_sequence {es : List (Matcher α τ)}
    (he : ∀ e ∈ es, Bisimilar e.start e.start) :
    Bisimulation (Combined (fun s => sequence s es) InElement) := by
  refine bisimulation_combined (fun _ _ => rfl) (fun _ _ _ => rfl) ?_
  intro x s live live' h
  have hmoved := mutual_readNumbered (fun x _ _ hp => hp.read x) x h
  obtain ⟨later, hread, hlater⟩ := advance_sequence es x s live
  obtain ⟨later', hread', hlater'⟩ := Plain.advance_sequence es x s live'
  rw [hread, hread', hmoved.merge_eq fun _ _ => sequenceOutcome_eq es]
  exact .mk _ (hmoved.offspring (fun _ _ => mutual_sequenceOffspring he) hlater hlater')

theorem bisimulation_choice (bs : List (Matcher α τ)) :
    Bisimulation (Combined (fun s => choice s bs) Bisimilar) := by
  refine bisimulation_combined (fun _ _ => rfl) (fun _ _ _ => rfl) ?_
  intro x s live live' h
  have hmoved : Mutual Bisimilar (readAll x live) (Plain.readAll x live') := by
    rw [readAll_eq_map, Plain.readAll_eq_map]
    exact h.map fun m m' hm => hm.read x
  rw [advance, Plain.advance, hmoved.merge_eq fun _ _ hm => hm.state_eq]
  refine .mk _ (hmoved.offspring (f := fun m => if m.state.isLive then [m] else [])
    (g := fun m => if m.state.isLive then [m] else []) ?_ ?_ ?_)
  · intro m m' hm
    rw [hm.state_eq]
    split_ifs
    · exact .single hm
    · exact .nil
  all_goals
    intro q
    simp only [List.mem_filter]
    grind

/-- The number `c` that stands for repetition number `k`: without an upper bound it stays at the
lower bound. -/
structure Counts (b : Bounds) (n c k : Nat) : Prop where
  bounded : ¬b.isUnbounded → c = k ∧ k ≤ b.upper
  unbounded : b.isUnbounded → c = min k (max n 1)

namespace Counts

variable {b : Bounds} {n c k : Nat}

theorem lower_le_iff (h : Counts b n c k) : n ≤ c ↔ n ≤ k := by
  by_cases hb : b.isUnbounded
  · have hc := h.unbounded hb
    omega
  · rw [(h.bounded hb).1]

theorem lt_upper_iff (h : Counts b n c k) (hn : n < IncrementalRegex.unbounded) :
    c < b.upper ↔ b.isUnbounded ∨ k < b.upper := by
  by_cases hb : b.isUnbounded
  · have hc := h.unbounded hb
    have hu : 1 < IncrementalRegex.unbounded := by decide
    simp only [hb, true_or, iff_true]
    rw [b.isUnbounded_iff.mp hb]
    omega
  · simp [hb, (h.bounded hb).1]

theorem eq_upper_iff (h : Counts b n c k) (hn : n < IncrementalRegex.unbounded) :
    c = b.upper ↔ ¬b.isUnbounded ∧ k = b.upper := by
  by_cases hb : b.isUnbounded
  · have hlt := (h.lt_upper_iff hn).mpr (.inl hb)
    simp only [hb, not_true, false_and, iff_false]
    omega
  · simp [hb, (h.bounded hb).1]

theorem le_upper (h : Counts b n c k) (hn : n < IncrementalRegex.unbounded) : c ≤ b.upper := by
  by_cases hb : b.isUnbounded
  · exact Nat.le_of_lt ((h.lt_upper_iff hn).mpr (.inl hb))
  · obtain ⟨rfl, hle⟩ := h.bounded hb
    exact hle

theorem next (h : Counts b n c k) (hc : c < b.upper) : Counts b n (b.next n c) (k + 1) := by
  have hle := b.upper_le_unbounded
  constructor
  · intro hb
    obtain ⟨rfl, -⟩ := h.bounded hb
    rw [Bounds.next, if_neg hb]
    omega
  · intro hb
    have hk := h.unbounded hb
    rw [Bounds.next, if_pos hb]
    omega

theorem one (b : Bounds) (n : Nat) (hb : b.upper ≠ 0) : Counts b n 1 1 := by
  constructor
  · intro _
    omega
  · intro _
    omega

end Counts

/-- Alike progressions in the same repetition of the body `t`. -/
structure InRepetition (t : Matcher α τ) (b : Bounds) (n : Nat) (p p' : Matcher α τ × Nat) :
    Prop where
  alike : Bisimilar p.1 p'.1
  again : p.1.start = t.start
  counts : Counts b n p.2 p'.2

variable {t : Matcher α τ} {b : Bounds} {n : Nat}

theorem InRepetition.read {p p' : Matcher α τ × Nat} (h : InRepetition t b n p p') (x : α) :
    InRepetition t b n (p.1.read x, p.2) (Plain.read p'.1 x, p'.2) where
  alike := h.alike.read x
  again := (start_read p.1 x).trans h.again
  counts := h.counts

theorem InRepetition.outcome_eq {p p' : Matcher α τ × Nat} (h : InRepetition t b n p p')
    (hn : n < unbounded) : repetitionOutcome b n p = Plain.repetitionOutcome b n p' := by
  obtain ⟨m, c⟩ := p
  obtain ⟨m', k⟩ := p'
  obtain ⟨halike, -, hcounts⟩ := h
  have hstate : m.state = m'.state := halike.state_eq
  have hlower : n ≤ c ↔ n ≤ k := hcounts.lower_le_iff
  have hupper : c = b.upper ↔ _ := hcounts.eq_upper_iff hn
  rw [repetitionOutcome, Plain.repetitionOutcome, hstate]
  cases m'.state <;> simp only [← Nat.not_le, hlower, hupper]

/-- The same progressions in the next repetition, whether the body is new or has started again. -/
theorem InRepetition.next {m : Matcher α τ} {c k : Nat} (ht : Bisimilar t.start t.start)
    (hm : m.start = t.start) (h : Counts b n c k) (hc : c < b.upper) :
    InRepetition t b n (m.start, b.next n c) (t.start, k + 1) where
  alike := hm ▸ ht
  again := (start_start m).trans hm
  counts := h.next hc

theorem InRepetition.mutual_offspring {p p' : Matcher α τ × Nat} (h : InRepetition t b n p p')
    (ht : Bisimilar t.start t.start) (hn : n < unbounded) :
    Mutual (InRepetition t b n) (repetitionOffspring t b n p)
      (Plain.repetitionOffspring t b p') := by
  have hp := h
  obtain ⟨m, c⟩ := p
  obtain ⟨m', k⟩ := p'
  obtain ⟨halike, hagain, hcounts⟩ := h
  have hstate : m.state = m'.state := halike.state_eq
  have hmore : c < b.upper ↔ _ := hcounts.lt_upper_iff hn
  have hspent : c = b.upper ↔ _ := hcounts.eq_upper_iff hn
  unfold repetitionOffspring Plain.repetitionOffspring
  apply Mutual.append
  · simp only [repetitionKeep, Plain.repetitionKeep, ← hspent, ← hstate]
    cases m.state with
    | matched | undecided => exact .single hp
    | mismatch => exact .nil
    | finalMatch =>
      dsimp only
      split_ifs with hc
      · exact .nil
      · exact .single (.next ht hagain hcounts (lt_of_le_of_ne (hcounts.le_upper hn) hc))
  · simp only [repetitionSpawn, Plain.repetitionSpawn, ← hmore, ← hstate]
    split_ifs with hc
    · exact .single (.next ht rfl hcounts hc.2)
    · exact .nil

theorem bisimulation_repetition (ht : Bisimilar t.start t.start) (hn : n < unbounded) :
    Bisimulation (Combined (fun s => repetition s t b n) (InRepetition t b n)) := by
  refine bisimulation_combined (fun _ _ => rfl) (fun _ _ _ => rfl) ?_
  intro x s live live' h
  have hmoved := mutual_readNumbered (fun x _ _ hp => hp.read x) x h
  obtain ⟨later, hread, hlater⟩ := advance_repetition t b n x s live
  obtain ⟨later', hread', hlater'⟩ := Plain.advance_repetition t b n x s live'
  rw [hread, hread', hmoved.merge_eq fun _ _ hp => hp.outcome_eq hn]
  exact .mk _ (hmoved.offspring (fun _ _ hp => hp.mutual_offspring ht hn) hlater hlater')

theorem bisimilar_start_repetition (ht : Bisimilar t.start t.start) (hb : b.lower < unbounded)
    (s : MatchState) (n : Nat) (live : List (Matcher α τ × Nat)) :
    Bisimilar (repetition s t b n live).start (repetition s t b n live).start := by
  have hcombined (n : Nat) (hn : n < unbounded) (s : MatchState)
      {live : List (Matcher α τ × Nat)} (h : ∀ p ∈ live, InRepetition t b n p p) :
      Bisimilar (repetition s t b n live) (repetition s t b n live) :=
    ⟨_, bisimulation_repetition ht hn, .mk s (.refl h)⟩
  by_cases hu : b.upper = 0
  · rw [start, if_pos hu]
    exact hcombined _ hb _ (List.forall_mem_nil _)
  · have hfirst (n : Nat) : ∀ p ∈ [(t.start, 1)], InRepetition t b n p p := by
      intro p hp
      obtain rfl := List.mem_singleton.mp hp
      exact ⟨ht, start_start t, .one b n hu⟩
    rw [start, if_neg hu]
    cases t.state with
    | finalMatch | mismatch => exact hcombined _ hb _ (List.forall_mem_nil _)
    | undecided => exact hcombined _ hb _ (hfirst _)
    | matched => exact hcombined _ (by decide) _ (hfirst _)

/-- A tree at its start does what the plain engine does with the same tree. -/
theorem bisimilar_of_built {m : Matcher α τ} (h : m.Built .limited) :
    Bisimilar m.start m.start := by
  induction h with
  | one | satisfying | any | literal => exact bisimilar_leaf _ _
  | @concat es _ _ ih =>
    have he : ∀ e ∈ es.map idle, Bisimilar e.start e.start := by
      intro e he
      obtain ⟨d, hd, rfl⟩ := List.mem_map.mp he
      rw [start_idle]
      exact ih d hd
    rw [start_concat, concat, start]
    exact ⟨_, bisimulation_sequence he, .mk _ (mutual_reach he 0)⟩
  | @either bs _ _ ih =>
    rw [start_either, Matcher.either, start]
    refine ⟨_, bisimulation_choice _, .mk _ (.refl ?_)⟩
    intro m hm
    obtain ⟨b, hb, -, rfl⟩ := mem_startLive.mp hm
    obtain ⟨d, hd, rfl⟩ := List.mem_map.mp hb
    rw [start_idle]
    exact ih d hd
  | @replicate body bounds h _ ih =>
    rw [start_replicate, replicate]
    refine bisimilar_start_repetition ?_ h ..
    rw [start_idle]
    exact ih

/-- The states that a tree reports, one item after another, are those of the plain engine; and so
they are where the input goes on after a terminal state. -/
theorem states_eq_plain {m : Matcher α τ} (h : m.Built .limited) (input : List α) :
    m.states input = Plain.states m input ∧ m.rawStates input = Plain.rawStates m input := by
  have hm := bisimilar_of_built h
  constructor
  · rw [start_of_built h] at hm
    exact hm.trace_eq (fun hm x => hm.read x) input
  · rw [rawStates, Plain.rawStates, hm.trace_eq (fun hm x => hm.advance x) input]

/-- Here two progressions are enough, where the plain engine has one for every way to split up the
input. -/
theorem states_eq_plain_of_ambiguous :
    let m : Matcher Int Interval :=
      replicate (either [any, replicate any (.exactly 2)]) (.atLeast 2)
    m.states [1, 2, 3, 4] = Plain.states m [1, 2, 3, 4] ∧
      Plain.states m [1, 2, 3, 4] = [.undecided, .matched, .matched, .matched] := by
  intro m
  have hm : m.Built .limited := by
    apply Built.replicate (by decide : (Bounds.atLeast 2).lower < unbounded)
    apply Built.either trivial
    intro b hb
    simp only [List.mem_cons, List.not_mem_nil, or_false] at hb
    rcases hb with rfl | rfl
    · exact .any trivial
    · exact .replicate (by decide : (Bounds.exactly 2).lower < unbounded) (.any trivial)
  exact ⟨(states_eq_plain hm [1, 2, 3, 4]).1, by decide⟩

end Matcher
end IncrementalRegex
