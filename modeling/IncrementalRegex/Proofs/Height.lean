import IncrementalRegex.Proofs.Proper
import IncrementalRegex.Proofs.Storage

namespace IncrementalRegex

namespace Matcher

variable {α τ : Type}

mutual

/-- The number of repetitions on the way down to the deepest leaf, progressions included. -/
def height : Matcher α τ → Nat
  | leaf _ _ => 0
  | sequence _ es live => max (heights es) (numberedHeights live)
  | choice _ bs live => max (heights bs) (heights live)
  | repetition _ t _ _ live => max (height t) (numberedHeights live) + 1
termination_by structural m => m

def heights : List (Matcher α τ) → Nat
  | [] => 0
  | m :: ms => max (height m) (heights ms)
termination_by structural ms => ms

def numberedHeights : List (Matcher α τ × Nat) → Nat
  | [] => 0
  | (m, _) :: ms => max (height m) (numberedHeights ms)
termination_by structural ms => ms

end

theorem heights_le_iff {ms : List (Matcher α τ)} {n : Nat} :
    heights ms ≤ n ↔ ∀ m ∈ ms, m.height ≤ n := by
  induction ms with
  | nil => simp [heights]
  | cons m ms ih => simp [heights, ih]

theorem height_le_heights {m : Matcher α τ} {ms : List (Matcher α τ)} (h : m ∈ ms) :
    m.height ≤ heights ms := heights_le_iff.mp (Nat.le_refl _) m h

theorem numberedHeights_eq (ms : List (Matcher α τ × Nat)) :
    numberedHeights ms = heights (ms.map Prod.fst) := by
  induction ms with
  | nil => rfl
  | cons p ms ih => rw [numberedHeights, ih, List.map_cons, heights]

/-- The number of repetitions at the root. -/
def ownHeight : Matcher α τ → Nat
  | repetition _ _ _ _ _ => 1
  | leaf _ _ | sequence _ _ _ | choice _ _ _ => 0

/-- The height is told by what is held. -/
theorem height_eq (m : Matcher α τ) :
    m.height = max (heights m.parts) (heights m.progressions) + m.ownHeight := by
  cases m with
  | leaf => rfl
  | sequence s es live => rw [height, numberedHeights_eq]; rfl
  | choice => rfl
  | repetition s t b n live =>
    have hbody : heights [t] = t.height := Nat.max_zero _
    rw [height, numberedHeights_eq, parts, hbody]
    rfl

theorem heights_parts_le (m : Matcher α τ) : heights m.parts + m.ownHeight ≤ m.height := by
  rw [height_eq]
  exact Nat.add_le_add_right (Nat.le_max_left ..) _

theorem height_withState (s : MatchState) (m : Matcher α τ) :
    (m.withState s).height = m.height := by
  cases m <;> rfl

theorem ownHeight_start (m : Matcher α τ) : m.start.ownHeight = m.ownHeight := by
  cases m with
  | leaf | sequence | choice => rfl
  | repetition s t b n live =>
    obtain ⟨s', n', live', h⟩ := start_repetition s t b n live
    rw [h]
    rfl

/-- What progresses at the start is nothing but copies of the parts. -/
theorem height_start (m : Matcher α τ) : m.start.height = heights m.parts + m.ownHeight := by
  induction m using held_induction with
  | held m ih _ =>
    have hprogress : heights m.start.progressions ≤ heights m.parts := by
      refine heights_le_iff.mpr fun p hp => ?_
      obtain ⟨e, he, rfl⟩ := exists_of_mem_progressions_start hp
      rw [ih e he]
      exact (heights_parts_le e).trans (height_le_heights he)
    rw [height_eq, parts_start, ownHeight_start, Nat.max_eq_left hprogress]

theorem height_start_le (m : Matcher α τ) : m.start.height ≤ m.height := by
  rw [height_start]
  exact heights_parts_le m

theorem height_idle (m : Matcher α τ) : m.idle.height = m.start.height := by
  have hown : m.idle.ownHeight = m.ownHeight := by
    rw [← ownHeight_start m.idle, start_idle, ownHeight_start]
  rw [height_eq, hown, idle, parts_withoutProgress, progressions_withoutProgress, parts_start,
    height_start, heights, Nat.max_zero]

theorem heights_map_idle {ms : List (Matcher α τ)} (h : ∀ m ∈ ms, m.start = m) :
    heights (ms.map idle) = heights ms := by
  induction ms with
  | nil => rfl
  | cons m ms ih =>
    rw [List.map_cons, heights, heights, height_idle, h m List.mem_cons_self,
      ih fun x hx => h x (List.mem_cons_of_mem m hx)]

theorem height_concat {es : List (Matcher α τ)} (h : ∀ e ∈ es, e.start = e) :
    (concat es).height = heights es := by
  rw [concat, height_start, parts, heights_map_idle h]
  rfl

theorem height_either {bs : List (Matcher α τ)} (h : ∀ b ∈ bs, b.start = b) :
    (either bs).height = heights bs := by
  rw [either, height_start, parts, heights_map_idle h]
  rfl

theorem height_replicate {t : Matcher α τ} (h : t.start = t) (b : Bounds) :
    (replicate t b).height = t.height + 1 := by
  rw [replicate, height_start, parts, heights, heights, height_idle, h, Nat.max_zero]
  rfl

section

variable [DecidableEq α] [DecidableEq τ] [ItemTest τ α]

theorem ownHeight_advance (x : α) (m : Matcher α τ) :
    (advance x m).ownHeight = m.ownHeight := by
  cases m <;> simp only [advance, ownHeight]

theorem height_advance_le (x : α) (m : Matcher α τ) : (advance x m).height ≤ m.height := by
  induction m using held_induction with
  | held m _ ih =>
    rw [height_eq, height_eq m, parts_advance, ownHeight_advance]
    refine Nat.add_le_add_right (Nat.max_le.mpr ⟨Nat.le_max_left .., ?_⟩) _
    refine heights_le_iff.mpr fun q hq => ?_
    rcases exists_of_mem_progressions_advance hq with ⟨p, hp, hq⟩ | ⟨e, he, rfl⟩
    · have hle : q.height ≤ p.height := by
        rcases hq with rfl | rfl
        · unfold read
          split_ifs
          · exact ih p hp
          · rw [height_withState]
        · exact height_start_le p
      exact hle.trans ((height_le_heights hp).trans (Nat.le_max_right ..))
    · exact (height_start_le e).trans ((height_le_heights he).trans (Nat.le_max_left ..))

theorem height_read_le (m : Matcher α τ) (x : α) : (m.read x).height ≤ m.height := by
  unfold read
  split_ifs
  · exact height_advance_le x m
  · rw [height_withState]

/-- Whatever is read, a tree does not grow deeper. -/
theorem height_feed_le (m : Matcher α τ) (input : List α) : (m.feed input).height ≤ m.height := by
  induction input generalizing m with
  | nil => exact Nat.le_refl _
  | cons x input ih => exact (ih (m.read x)).trans (height_read_le m x)

end

end Matcher

namespace Pattern

mutual

/-- The number of repetitions on the way down to the deepest leaf. -/
def height : Pattern → Nat
  | one _ | text _ | any | satisfying _ => 0
  | concat ps | either ps => heights ps
  | repeated p _ => height p + 1
termination_by structural p => p

def heights : List Pattern → Nat
  | [] => 0
  | p :: ps => max (height p) (heights ps)
termination_by structural ps => ps

end

theorem heights_le_iff {ps : List Pattern} {n : Nat} :
    heights ps ≤ n ↔ ∀ p ∈ ps, p.height ≤ n := by
  induction ps with
  | nil => simp [heights]
  | cons p ps ih => simp [heights, ih]

theorem IsLeaf.height_eq {p : Pattern} (h : p.IsLeaf) : p.height = 0 := by
  cases p <;> first | rfl | exact h.elim

theorem start_matcher (p : Pattern) (tag : Nat) :
    (p.matcher tag).1.start = (p.matcher tag).1 := by
  cases p <;> exact Matcher.start_start _

theorem start_of_mem_matchers {tag : Nat} {ps : List Pattern} {m : Matcher Char CharTest}
    (h : m ∈ (matchers tag ps).1) : m.start = m := by
  obtain ⟨p, -, tag', rfl⟩ := mem_matchers h
  exact start_matcher p tag'

mutual

theorem height_matcher : ∀ (p : Pattern) (tag : Nat), (p.matcher tag).1.height = p.height
  | one _, _ | text _, _ | any, _ | satisfying _, _ => rfl
  | concat ps, tag => by
    rw [matcher, Matcher.height_concat fun _ => start_of_mem_matchers, heights_matchers ps, height]
  | either ps, tag => by
    rw [matcher, Matcher.height_either fun _ => start_of_mem_matchers, heights_matchers ps, height]
  | repeated p b, tag => by
    rw [matcher, Matcher.height_replicate (start_matcher p tag), height_matcher p, height]

theorem heights_matchers : ∀ (ps : List Pattern) (tag : Nat),
    Matcher.heights (matchers tag ps).1 = heights ps
  | [], _ => rfl
  | p :: ps, tag => by
    rw [matchers, Matcher.heights, height_matcher p, heights_matchers ps, heights]

end

end Pattern

end IncrementalRegex
