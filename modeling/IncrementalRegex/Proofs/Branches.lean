import IncrementalRegex.Proofs.Alike
import IncrementalRegex.Proofs.Storage

namespace IncrementalRegex

open MatchState

variable {α τ : Type}

/-- Branches that are put in groups, and the groups in groups, to whatever depth. -/
inductive Grouping (α τ : Type) where
  | branch (m : Matcher α τ)
  | group (members : List (Grouping α τ))

namespace Grouping

mutual

/-- Every group is a choice among its members. -/
def matcher : Grouping α τ → Matcher α τ
  | branch m => m
  | group gs => .either (matchers gs)
termination_by structural g => g

def matchers : List (Grouping α τ) → List (Matcher α τ)
  | [] => []
  | g :: gs => matcher g :: matchers gs
termination_by structural gs => gs

end

mutual

/-- The branches from left to right, without the groups. -/
def branches : Grouping α τ → List (Matcher α τ)
  | branch m => [m]
  | group gs => allBranches gs
termination_by structural g => g

def allBranches : List (Grouping α τ) → List (Matcher α τ)
  | [] => []
  | g :: gs => branches g ++ allBranches gs
termination_by structural gs => gs

end

theorem matchers_eq (gs : List (Grouping α τ)) : matchers gs = gs.map matcher := by
  induction gs with
  | nil => rfl
  | cons g gs ih => rw [matchers, ih, List.map_cons]

theorem allBranches_eq (gs : List (Grouping α τ)) : allBranches gs = gs.flatMap branches := by
  induction gs with
  | nil => rfl
  | cons g gs ih => rw [allBranches, ih, List.flatMap_cons]

variable [DecidableEq α] [DecidableEq τ] [ItemTest τ α] {a : Aspect} {w : List α}

mutual

/-- Grouped or not, branches answer yes where one of them does. -/
theorem mem_words_matcher : ∀ g : Grouping α τ,
    w ∈ g.matcher.start.words a ↔ ∃ b ∈ g.branches, w ∈ b.start.words a
  | branch m => by simp only [matcher, branches, List.mem_singleton, exists_eq_left]
  | group gs => by rw [matcher, branches, Matcher.mem_words_either, mem_words_matchers gs]

theorem mem_words_matchers : ∀ gs : List (Grouping α τ),
    (∃ m ∈ matchers gs, w ∈ m.start.words a) ↔ ∃ b ∈ allBranches gs, w ∈ b.start.words a
  | [] => Iff.rfl
  | g :: gs => by
    have hfirst := mem_words_matcher g
    have hothers := mem_words_matchers gs
    simp only [matchers, allBranches, List.mem_cons, List.mem_append, or_and_right, exists_or,
      exists_eq_left, hfirst, hothers]

end

end Grouping

namespace Matcher

variable [DecidableEq α] [DecidableEq τ] [ItemTest τ α]

theorem alike_either_of_mem {bs bs' : List (Matcher α τ)} (h : ∀ m, m ∈ bs ↔ m ∈ bs') :
    Alike (either bs) (either bs') := by
  intro a
  ext w
  rw [mem_words_either, mem_words_either]
  exact exists_congr fun m => and_congr_left fun _ => h m

theorem alike_either_matcher (gs : List (Grouping α τ)) :
    Alike (either (gs.map Grouping.matcher)) (either (gs.flatMap Grouping.branches)) := by
  intro a
  ext w
  rw [mem_words_either, mem_words_either, ← Grouping.matchers_eq, ← Grouping.allBranches_eq]
  exact Grouping.mem_words_matchers gs

theorem alike_either_single (m : Matcher α τ) : Alike (either [m]) m := by
  intro a
  ext w
  simp only [mem_words_either, List.mem_singleton, exists_eq_left]

/-- What a choice reports depends neither on the order of its branches, nor on how often each is
there, nor on how they are grouped into choices themselves; and a choice of one branch reports what
the branch does. -/
theorem states_either :
    (∀ bs bs' : List (Matcher α τ), (∀ m, m ∈ bs ↔ m ∈ bs') →
      (either bs).state = (either bs').state ∧
      ∀ input, (either bs).states input = (either bs').states input) ∧
    (∀ gs : List (Grouping α τ),
      (either (gs.map Grouping.matcher)).state = (either (gs.flatMap Grouping.branches)).state ∧
      ∀ input, (either (gs.map Grouping.matcher)).states input =
        (either (gs.flatMap Grouping.branches)).states input) ∧
    ∀ m : Matcher α τ, (either [m]).state = m.start.state ∧
      ∀ input, (either [m]).states input = m.start.states input := by
  have hreports {bs : List (Matcher α τ)} {m : Matcher α τ} (h : Alike (either bs) m) :
      (either bs).state = m.start.state ∧
      ∀ input, (either bs).states input = m.start.states input := by
    have hstate := h.state_eq
    have hstates := h.states_eq
    rw [start_either] at hstate hstates
    exact ⟨hstate, hstates⟩
  refine ⟨fun bs bs' h => ?_, fun gs => ?_, fun m => hreports (alike_either_single m)⟩
  · have hsame := hreports (alike_either_of_mem h)
    rwa [start_either] at hsame
  · have hsame := hreports (alike_either_matcher gs)
    rwa [start_either] at hsame

/-- The branch that is there twice has read an item before, and goes on. -/
theorem states_of_repeated_branch :
    let used : Matcher Int Interval := (either [one 1, literal [1, 2]]).read 1
    let ones : Matcher Int Interval := replicate (one 1) (.atLeast 1)
    used.progressions ≠ [] ∧ (∀ m, m ∈ [used, ones, used] ↔ m ∈ [ones, used]) ∧
    (either [used, ones, used]).state = (either [ones, used]).state ∧
    ∀ input, (either [used, ones, used]).states input = (either [ones, used]).states input := by
  intro used ones
  have hsame : ∀ m, m ∈ [used, ones, used] ↔ m ∈ [ones, used] := by
    intro m
    simp only [List.mem_cons, List.not_mem_nil, or_false]
    tauto
  exact ⟨by decide, hsame, states_either.1 _ _ hsame⟩

end Matcher
end IncrementalRegex
