import IncrementalRegex.Proofs.Capacity

namespace IncrementalRegex.Matcher

open MatchState

variable {α τ : Type}

mutual

/-- The number of matchers in a tree, those stored and those that progress. -/
def nodes : Matcher α τ → Nat
  | leaf _ _ => 1
  | sequence _ es live => allNodes es + numberedNodes live + 1
  | choice _ bs live => allNodes bs + allNodes live + 1
  | repetition _ t _ _ live => nodes t + numberedNodes live + 1
termination_by structural m => m

def allNodes : List (Matcher α τ) → Nat
  | [] => 0
  | m :: ms => nodes m + allNodes ms
termination_by structural ms => ms

def numberedNodes : List (Matcher α τ × Nat) → Nat
  | [] => 0
  | (m, _) :: ms => nodes m + numberedNodes ms
termination_by structural ms => ms

end

/-- A matcher repeated any number of times, that again any number of times, and so on `d` times
over. -/
def stars (m : Matcher α τ) : Nat → Matcher α τ
  | 0 => m
  | d + 1 => replicate (stars m d) (.atLeast 0)

/-- As a part a matcher is stored in its initial state. -/
theorem stars_start (m : Matcher α τ) (d : Nat) : stars m (d + 1) = stars m.start (d + 1) := by
  induction d with
  | zero => rw [stars, stars, stars, stars, replicate, replicate, idle, idle, start_start]
  | succ d ih => rw [stars, ih, ← stars]

variable {m : Matcher α τ} {d : Nat}

theorem start_stars (hm : m.start = m) (d : Nat) : (stars m d).start = stars m d := by
  cases d with
  | zero => exact hm
  | succ d => exact start_replicate ..

theorem stars_succ (hm : m.start = m) (hs : m.state = .undecided) (d : Nat) :
    stars m (d + 1) =
      repetition .matched (stars m d).idle (.atLeast 0) 0 [(stars m d, 1)] := by
  have hupper : (Bounds.atLeast 0).upper ≠ 0 := by decide
  have hlower : (Bounds.atLeast 0).lower = 0 := by decide
  induction d with
  | zero => simp [stars, replicate, start, hupper, hlower, state_idle, start_idle, hm, hs]
  | succ d ih =>
    have hstate : (stars m (d + 1)).state = .matched := by rw [ih, state_repetition]
    have hstart := start_stars hm (d + 1)
    rw [stars]
    simp [replicate, start, hupper, state_idle, start_idle, hstart, hstate]

theorem state_start_leaf {l : Leaf α τ} (hl : l ≠ .literal [] []) (s : MatchState) :
    (leaf s l).start.state = .undecided := by
  cases l with
  | one | satisfying | any => rfl
  | literal before rest =>
    have htext : before.reverse ++ rest ≠ [] := by simpa using hl
    simp [start, Leaf.start, htext]

/-- What so many stars on a leaf become: they are as they were at the start, or their only
progression waits for more, or nothing progresses any more. -/
inductive StarsAfter (m : Matcher α τ) : Nat → Matcher α τ → Prop where
  | leaf {s : MatchState} {l : Leaf α τ} (start : (leaf s l).start = m) (state : s ≠ .matched) :
    StarsAfter m 0 (leaf s l)
  | fresh (d : Nat) : StarsAfter m (d + 1) (stars m (d + 1))
  | waiting {d : Nat} {p : Matcher α τ} (inside : StarsAfter m d p) (state : p.state = .undecided) :
    StarsAfter m (d + 1) (repetition .undecided (stars m d).idle (.atLeast 0) 0 [(p, 1)])
  | spent (d : Nat) :
    StarsAfter m (d + 1) (repetition .mismatch (stars m d).idle (.atLeast 0) 0 [])

variable {r : Matcher α τ}

theorem starsAfter_stars (hm : StarsAfter m 0 m) (d : Nat) : StarsAfter m d (stars m d) := by
  cases d with
  | zero => exact hm
  | succ d => exact .fresh d

theorem StarsAfter.start_eq (h : StarsAfter m d r) : r.start = stars m d := by
  cases h with
  | leaf start => exact start
  | fresh d => exact start_replicate ..
  | waiting | spent =>
    rw [stars, replicate]
    rfl

/-- When stars match, they are as they were at the start. -/
theorem StarsAfter.eq_of_matched (h : StarsAfter m d r) (hr : r.state = .matched) :
    r = stars m d := by
  cases h with
  | leaf _ state => exact absurd hr state
  | fresh => rfl
  | waiting | spent => cases hr

/-- No level lists more than one progression, and there are as few matchers as that leaves. -/
structure Slim (d : Nat) (r : Matcher α τ) : Prop where
  bounded : r.Bounded 1
  few : r.nodes ≤ (d + 1) ^ 2

theorem slim_leaf (s : MatchState) (l : Leaf α τ) : Slim 0 (leaf s l) where
  bounded := bounded_iff.mpr ⟨Nat.zero_le 1, List.forall_mem_nil _, List.forall_mem_nil _⟩
  few := Nat.le_refl 1

/-- Without its own progression a level is a tree without branches. -/
theorem idle_stars (hm : StarsAfter m 0 m) (hs : m.state = .undecided) (d : Nat) :
    (stars m d).idle.Bounded 1 ∧ (stars m d).idle.nodes = d + 1 := by
  induction d with
  | zero =>
    cases hm with
    | leaf => exact ⟨(slim_leaf ..).bounded, rfl⟩
  | succ d ih =>
    obtain ⟨hbounded, hnodes⟩ := ih
    rw [idle, start_stars hm.start_eq, stars_succ hm.start_eq hs, withoutProgress]
    constructor
    · exact bounded_iff.mpr
        ⟨Nat.zero_le 1, List.forall_mem_singleton.mpr hbounded, List.forall_mem_nil _⟩
    · rw [nodes, hnodes, numberedNodes]

variable {t p : Matcher α τ}

theorem slim_spent (ht : t.Bounded 1 ∧ t.nodes = d + 1) (s : MatchState) (b : Bounds) (n : Nat) :
    Slim (d + 1) (repetition s t b n []) where
  bounded := bounded_iff.mpr
    ⟨Nat.zero_le 1, List.forall_mem_singleton.mpr ht.1, List.forall_mem_nil _⟩
  few := by
    rw [nodes, ht.2, numberedNodes]
    exact Nat.le_self_pow (by decide) (d + 1 + 1)

theorem slim_level (ht : t.Bounded 1 ∧ t.nodes = d + 1) (hp : Slim d p) (s : MatchState)
    (b : Bounds) (n c : Nat) : Slim (d + 1) (repetition s t b n [(p, c)]) where
  bounded := bounded_iff.mpr
    ⟨Nat.le_refl 1, List.forall_mem_singleton.mpr ht.1, List.forall_mem_singleton.mpr hp.bounded⟩
  few := by
    have hfew := hp.few
    have hsquare : (d + 1 + 1) ^ 2 = (d + 1) ^ 2 + 2 * (d + 1) * 1 + 1 ^ 2 := add_sq (d + 1) 1
    rw [nodes, ht.2, numberedNodes, numberedNodes]
    omega

theorem slim_stars (hm : StarsAfter m 0 m) (hs : m.state = .undecided) (d : Nat) :
    Slim d (stars m d) := by
  induction d with
  | zero =>
    cases hm with
    | leaf => exact slim_leaf ..
  | succ d ih =>
    rw [stars_succ hm.start_eq hs]
    exact slim_level (idle_stars hm hs d) ih ..

theorem slim_of_starsAfter (hm : StarsAfter m 0 m) (hs : m.state = .undecided)
    (h : StarsAfter m d r) : Slim d r := by
  induction h with
  | leaf => exact slim_leaf ..
  | fresh d => exact slim_stars hm hs (d + 1)
  | waiting _ _ ih => exact slim_level (idle_stars hm hs _) ih ..
  | spent => exact slim_spent (idle_stars hm hs _) ..

variable [DecidableEq α] [ItemTest τ α]

/-- A leaf that has matched accepts nothing more. -/
theorem read_leaf_ne_matched (l : Leaf α τ) (x : α) : (l.read x).1 ≠ .matched := by
  cases l with
  | one | satisfying =>
    simp only [Leaf.read]
    split_ifs <;> simp
  | any => simp [Leaf.read]
  | literal before rest =>
    cases rest with
    | nil => simp [Leaf.read]
    | cons y rest =>
      simp only [Leaf.read]
      split_ifs <;> simp

variable [DecidableEq τ]

/-- What becomes of the only progression of a star. -/
theorem advance_star (s : MatchState) (t p : Matcher α τ) (x : α) :
    advance x (repetition s t (.atLeast 0) 0 [(p, 1)]) =
      match (p.read x).state with
      | .matched => repetition .matched t (.atLeast 0) 0 [(p.read x, 1), (t.start, 1)].eraseDups
      | .finalMatch => repetition .matched t (.atLeast 0) 0 [((p.read x).start, 1)]
      | .undecided => repetition .undecided t (.atLeast 0) 0 [(p.read x, 1)]
      | .mismatch => repetition .mismatch t (.atLeast 0) 0 [] := by
  have hupper : (1 : Nat) ≠ (Bounds.atLeast 0).upper ∧ 1 < (Bounds.atLeast 0).upper := by decide
  have hnext : (Bounds.atLeast 0).next 0 1 = 1 := by decide
  rw [advance, readNumbered_eq_map, List.map_singleton]
  generalize p.read x = q
  cases h : q.state <;>
    simp [repetitionOutcome, repetitionKeep, repetitionSpawn, h, hupper, hnext, merge,
      List.eraseDups_cons]

theorem starsAfter_advance (hm : StarsAfter m 0 m) (hs : m.state = .undecided) {x : α}
    (hp : StarsAfter m d (p.read x)) (s : MatchState) : StarsAfter m (d + 1)
      (advance x (repetition s (stars m d).idle (.atLeast 0) 0 [(p, 1)])) := by
  have hstart := start_stars hm.start_eq d
  have hfresh : StarsAfter m (d + 1)
      (repetition .matched (stars m d).idle (.atLeast 0) 0 [(stars m d, 1)]) := by
    rw [← stars_succ hm.start_eq hs]
    exact .fresh d
  rw [advance_star]
  cases hstate : (p.read x).state with
  | matched =>
    simpa [hp.eq_of_matched hstate, start_idle, hstart, List.eraseDups_cons] using hfresh
  | finalMatch => simpa [hp.start_eq] using hfresh
  | undecided => exact .waiting hp hstate
  | mismatch => exact .spent d

theorem starsAfter_read (hm : StarsAfter m 0 m) (hs : m.state = .undecided)
    (h : StarsAfter m d r) (x : α) : StarsAfter m d (r.read x) := by
  induction d generalizing r with
  | zero =>
    cases h with
    | @leaf s l start =>
      have hstart : ((leaf s l).read x).start = m := (start_read _ x).trans start
      rw [read] at hstart ⊢
      split_ifs at hstart ⊢
      · exact .leaf hstart (read_leaf_ne_matched l x)
      · exact .leaf hstart (by simp)
  | succ d ih =>
    have hone {s : MatchState} {p : Matcher α τ} (hlive : s.isLive) (hp : StarsAfter m d p) :
        StarsAfter m (d + 1)
          ((repetition s (stars m d).idle (.atLeast 0) 0 [(p, 1)]).read x) := by
      rw [read_of_live (m := repetition ..) hlive]
      exact starsAfter_advance hm hs (ih hp) s
    cases h with
    | fresh =>
      rw [stars_succ hm.start_eq hs]
      exact hone rfl (starsAfter_stars hm d)
    | waiting inside => exact hone rfl inside
    | spent => exact .spent d

theorem starsAfter_feed (hm : StarsAfter m 0 m) (hs : m.state = .undecided)
    (h : StarsAfter m d r) (input : List α) : StarsAfter m d (r.feed input) := by
  induction input generalizing r with
  | nil => exact h
  | cons x input ih => exact ih (starsAfter_read hm hs h x)

/-- A leaf under any number of stars, whatever it has read before and whatever is read then, has no
more than one progression at any place, and is as small as that leaves it. -/
theorem length_progressions_stars {l : Leaf α τ} (hl : l ≠ .literal [] []) (s : MatchState)
    {d : Nat} (hd : 1 ≤ d) (input : List α) :
    let after := (stars (leaf s l) d).feed input
    (∀ a, after.Contains a → a.progressions.length ≤ 1) ∧ after.nodes ≤ (d + 1) ^ 2 := by
  intro after
  have hs := state_start_leaf hl s
  have hm : StarsAfter (leaf s l).start 0 (leaf s l).start := by
    refine .leaf (start_start (leaf s l)) fun h => ?_
    cases hs.symm.trans h
  obtain ⟨d, rfl⟩ := Nat.exists_eq_add_of_le' hd
  have hafter := starsAfter_feed hm hs (.fresh d) input
  rw [← stars_start] at hafter
  have hslim := slim_of_starsAfter hm hs hafter
  exact ⟨hslim.bounded, hslim.few⟩

/-- In the middle of the third text. -/
theorem length_progressions_of_three_stars :
    let text : Leaf Int Interval := .literal [] [1, 2]
    let after := (stars (leaf .undecided text) 3).feed [1, 2, 1, 2, 1]
    text ≠ .literal [] [] ∧ after.state = .undecided ∧ after.nodes = 10 ∧
      (∀ a, after.Contains a → a.progressions.length ≤ 1) ∧ after.nodes ≤ (3 + 1) ^ 2 := by
  intro text after
  have htext : text ≠ .literal [] [] := by decide
  exact ⟨htext, by decide, by decide, length_progressions_stars htext _ (by decide) _⟩

end IncrementalRegex.Matcher
