import IncrementalRegex.Matcher.Step
import Mathlib.Computability.Language

namespace IncrementalRegex
namespace MatchState

/-- The questions that a state answers. -/
inductive Aspect where
  /-- Do the items read match? -/
  | complete
  /-- Can further items still change the answer? -/
  | live
deriving DecidableEq, Repr

def Aspect.of : Aspect → MatchState → Bool
  | complete => isMatch
  | live => isLive

/-- The answers to both questions are the state. -/
theorem eq_of_aspects {s t : MatchState} (h : ∀ a : Aspect, a.of s = a.of t) : s = t := by
  have hc : s.isMatch = t.isMatch := h .complete
  have hl : s.isLive = t.isLive := h .live
  cases s <;> cases t <;> simp_all [isMatch, isLive]

/-- Parallel progressions together are complete, or live, as soon as one of them is. -/
theorem aspect_merge (a : Aspect) (states : List MatchState) :
    a.of (merge states) ↔ ∃ s ∈ states, a.of s := by
  unfold merge
  constructor
  · intro h
    split_ifs at h with hm hf hu hu
    · exact ⟨.matched, hm, by cases a <;> rfl⟩
    · cases a
      · exact ⟨.finalMatch, hf, rfl⟩
      · exact ⟨.undecided, hu, rfl⟩
    · exact ⟨.finalMatch, hf, h⟩
    · exact ⟨.undecided, hu, h⟩
    · cases a <;> cases h
  · intro hx
    obtain ⟨s, hs, h⟩ := hx
    cases s with
    | matched => simp only [hs, if_true]; cases a <;> rfl
    | finalMatch =>
      cases a with
      | complete => simp only [hs, if_true]; split_ifs <;> rfl
      | live => cases h
    | undecided =>
      cases a with
      | complete => cases h
      | live => simp only [hs, if_true]; split_ifs <;> rfl
    | mismatch => cases a <;> cases h

/-- Parallel progressions that together are terminal are so one by one. -/
theorem isLive_of_merge {states : List MatchState} {s : MatchState} (hs : s ∈ states)
    (h : (merge states).isLive = false) : s.isLive = false := by
  have hno : ¬∃ t ∈ states, Aspect.live.of t := by
    rw [← aspect_merge]
    simpa [Aspect.of] using h
  by_contra hl
  have hlive : Aspect.live.of s := by simpa [Aspect.of] using hl
  exact hno ⟨s, hs, hlive⟩

theorem eq_nil_of_not_live {β : Type} {s : MatchState} {live : List β}
    (h : s.isLive ↔ live ≠ []) (ht : s.isLive = false) : live = [] := by
  by_contra hne
  rw [h.mpr hne] at ht
  cases ht

theorem ne_mismatch {a : Aspect} {s : MatchState} (h : a.of s) : s ≠ .mismatch := by
  intro hm
  subst hm
  cases a <;> cases h

end MatchState

open MatchState

namespace Matcher

variable {α τ : Type}

@[simp] theorem state_leaf (s : MatchState) (l : Leaf α τ) : (leaf s l).state = s := rfl

@[simp] theorem state_sequence (s : MatchState) (es : List (Matcher α τ))
    (live : List (Matcher α τ × Nat)) : (sequence s es live).state = s := rfl

@[simp] theorem state_choice (s : MatchState) (bs live : List (Matcher α τ)) :
    (choice s bs live).state = s := rfl

@[simp] theorem state_repetition (s : MatchState) (t : Matcher α τ) (b : Bounds) (n : Nat)
    (live : List (Matcher α τ × Nat)) : (repetition s t b n live).state = s := rfl

theorem start_withoutProgress (m : Matcher α τ) : m.withoutProgress.start = m.start := by
  cases m <;> rfl

theorem start_withState (m : Matcher α τ) (s : MatchState) : (m.withState s).start = m.start := by
  cases m <;> rfl

theorem state_withState (m : Matcher α τ) (s : MatchState) : (m.withState s).state = s := by
  cases m <;> rfl

theorem start_leaf_start (s s' : MatchState) (l : Leaf α τ) :
    (leaf s l.start.2).start = (leaf s' l).start := by
  cases l <;> simp [start, Leaf.start]

/-- A repetition starts with the body and the bounds it has, and with no progression but the body,
started. -/
theorem start_repetition_live (s : MatchState) (t : Matcher α τ) (b : Bounds) (n : Nat)
    (live : List (Matcher α τ × Nat)) :
    ∃ s' n' live', (repetition s t b n live).start = repetition s' t b n' live' ∧
      ∀ p ∈ live', p = (t.start, 1) := by
  by_cases h : b.upper = 0
  · rw [start, if_pos h]
    exact ⟨_, _, _, rfl, List.forall_mem_nil _⟩
  · rw [start, if_neg h]
    cases t.state <;> exact ⟨_, _, _, rfl, by simp⟩

theorem start_repetition (s : MatchState) (t : Matcher α τ) (b : Bounds) (n : Nat)
    (live : List (Matcher α τ × Nat)) :
    ∃ s' n' live', (repetition s t b n live).start = repetition s' t b n' live' := by
  obtain ⟨s', n', live', h, -⟩ := start_repetition_live s t b n live
  exact ⟨s', n', live', h⟩

theorem start_start (m : Matcher α τ) : m.start.start = m.start := by
  cases m with
  | leaf s l => exact start_leaf_start ..
  | sequence | choice => rfl
  | repetition s t b n live =>
    obtain ⟨s', n', live', h⟩ := start_repetition s t b n live
    rw [h]
    exact h

theorem state_idle (m : Matcher α τ) : m.idle.state = m.start.state := by
  unfold idle
  cases m.start <;> rfl

theorem start_idle (m : Matcher α τ) : m.idle.start = m.start :=
  (start_withoutProgress m.start).trans (start_start m)

theorem start_concat (es : List (Matcher α τ)) : (concat es).start = concat es := start_start _

theorem start_either (bs : List (Matcher α τ)) : (either bs).start = either bs := start_start _

theorem start_replicate (t : Matcher α τ) (b : Bounds) : (replicate t b).start = replicate t b :=
  start_start _

theorem mem_startLive {bs : List (Matcher α τ)} {m : Matcher α τ} :
    m ∈ startLive bs ↔ ∃ b ∈ bs, b.state.isLive ∧ b.start = m := by
  induction bs with
  | nil => simp [startLive]
  | cons b bs ih =>
    rw [startLive]
    split_ifs with hb
    · rw [List.mem_cons, ih, eq_comm]
      simp [hb]
    · simp [hb, ih]

variable [DecidableEq α] [DecidableEq τ] [ItemTest τ α]

theorem start_advance (m : Matcher α τ) (x : α) : (advance x m).start = m.start := by
  cases m with
  | leaf s l =>
    cases l with
    | literal before rest =>
      cases rest with
      | nil => rfl
      | cons y rest =>
        simp only [advance, Leaf.read]
        split_ifs <;> simp [start, Leaf.start]
    | _ => rfl
  | sequence | choice | repetition => simp only [advance, start]

/-- Reading changes nothing that a matcher starts from. -/
theorem start_read (m : Matcher α τ) (x : α) : (m.read x).start = m.start := by
  unfold read
  split_ifs
  · exact start_advance m x
  · exact start_withState m _

theorem feed_cons (m : Matcher α τ) (x : α) (s : List α) :
    m.feed (x :: s) = (m.read x).feed s := rfl

theorem feed_append (m : Matcher α τ) (s t : List α) : m.feed (s ++ t) = (m.feed s).feed t :=
  List.foldl_append

theorem feed_concat (m : Matcher α τ) (input : List α) (x : α) :
    m.feed (input ++ [x]) = (m.feed input).read x := by
  simp [feed]

theorem start_feed (m : Matcher α τ) (input : List α) : (m.feed input).start = m.start := by
  induction input generalizing m with
  | nil => rfl
  | cons x input ih => exact (ih (m.read x)).trans (start_read m x)

theorem read_of_live {m : Matcher α τ} (h : m.state.isLive) (x : α) : m.read x = advance x m :=
  if_pos h

/-- After a terminal state there are only mismatches. -/
theorem state_feed_of_not_live {m : Matcher α τ} (h : m.state.isLive = false) {s : List α}
    (hs : s ≠ []) : (m.feed s).state = .mismatch := by
  induction s generalizing m with
  | nil => contradiction
  | cons x s ih =>
    have hr : (m.read x).state = .mismatch := by simp [read, h, state_withState]
    rw [feed_cons]
    by_cases hn : s = []
    · rw [hn]
      exact hr
    · exact ih (by rw [hr]; rfl) hn

/-- The inputs after which a matcher answers yes. -/
def words (m : Matcher α τ) (a : Aspect) : Language α := {s | a.of (m.feed s).state}

theorem nil_mem_words {m : Matcher α τ} {a : Aspect} : [] ∈ m.words a ↔ a.of m.state := Iff.rfl

theorem cons_mem_words {m : Matcher α τ} {a : Aspect} {x : α} {s : List α} :
    x :: s ∈ m.words a ↔ s ∈ (m.read x).words a := Iff.rfl

theorem append_mem_words {m : Matcher α τ} {a : Aspect} {s t : List α} :
    s ++ t ∈ m.words a ↔ t ∈ (m.feed s).words a := by
  change a.of (m.feed (s ++ t)).state ↔ a.of ((m.feed s).feed t).state
  rw [feed_append]

theorem live_of_mem_words {m : Matcher α τ} {a : Aspect} {s : List α} (hs : s ≠ [])
    (h : s ∈ m.words a) : m.state.isLive := by
  by_contra hl
  exact ne_mismatch h (state_feed_of_not_live (by simpa using hl) hs)

theorem notMem_words {m : Matcher α τ} {a : Aspect} {s : List α}
    (h : m.state.isLive = false) (hs : s ≠ []) : s ∉ m.words a := by
  intro hm
  rw [live_of_mem_words hs hm] at h
  contradiction

theorem words_of_finalMatch {m : Matcher α τ} (h : m.state = .finalMatch) :
    m.words .complete = 1 ∧ m.words .live = 0 := by
  have hno (a : Aspect) {s : List α} (hs : s ≠ []) : s ∉ m.words a :=
    notMem_words (by rw [h]; rfl) hs
  constructor <;> ext s <;> by_cases hs : s = []
  · simp [hs, nil_mem_words, h, Aspect.of, isMatch]
  · simp [hs, hno]
  · simp [hs, nil_mem_words, h, Aspect.of, isLive, Language.notMem_zero]
  · simp [hs, hno, Language.notMem_zero]

theorem accepts_iff_mem_words (m : Matcher α τ) (s : List α) :
    m.accepts s ↔ s ∈ m.start.words .complete := Iff.rfl

/-- Two matchers with the same words report the same states. -/
theorem state_feed_eq_of_words {m m' : Matcher α τ} (h : ∀ a, m.words a = m'.words a)
    (s : List α) : (m.feed s).state = (m'.feed s).state := by
  apply eq_of_aspects
  intro a
  have hs : s ∈ m.words a ↔ s ∈ m'.words a := by rw [h a]
  exact Bool.eq_iff_iff.mpr hs

end Matcher
end IncrementalRegex
