import IncrementalRegex.Proofs.Run

namespace IncrementalRegex

open MatchState

namespace Matcher

variable {α τ : Type} [DecidableEq α] [DecidableEq τ] [ItemTest τ α]

/-- A leaf that takes one item, if that is acceptable. -/
theorem mem_words_of_single (l : Leaf α τ) (accepted : α → Prop) [DecidablePred accepted]
    (hl : ∀ x, (l.read x).1 = if accepted x then .finalMatch else .mismatch) (s : List α) :
    (s ∈ (leaf .undecided l).words .complete ↔ ∃ x, accepted x ∧ s = [x]) ∧
    (s ∈ (leaf .undecided l).words .live ↔ s = []) := by
  cases s with
  | nil => simp [nil_mem_words, Aspect.of, isMatch, isLive]
  | cons x s =>
    have hread : (leaf .undecided l).read x = leaf (l.read x).1 (l.read x).2 := by
      rw [read_of_live rfl, advance]
    have hdead : (leaf (l.read x).1 (l.read x).2).state.isLive = false := by
      change (l.read x).1.isLive = false
      rw [hl x]
      split_ifs <;> rfl
    simp only [cons_mem_words, hread]
    by_cases hn : s = []
    · subst hn
      simp only [nil_mem_words, hdead, Aspect.of]
      simp only [state, hl x]
      split_ifs with ha <;> simp [isMatch, ha]
    · simp [notMem_words hdead hn, hn]

theorem mem_words_literal {before rest : List α} (hr : rest ≠ []) (s : List α) :
    (s ∈ (leaf .undecided (.literal before rest) : Matcher α τ).words .complete ↔ s = rest) ∧
    (s ∈ (leaf .undecided (.literal before rest) : Matcher α τ).words .live ↔
      ∃ w, w ≠ [] ∧ s ++ w = rest) := by
  induction s generalizing before rest with
  | nil => simpa [nil_mem_words, Aspect.of, isMatch, isLive, eq_comm] using hr
  | cons x s ih =>
    obtain ⟨y, rest, rfl⟩ := List.exists_cons_of_ne_nil hr
    by_cases hx : x = y
    · subst hx
      by_cases hn : rest = []
      · subst hn
        have hread : (leaf .undecided (.literal before [x]) : Matcher α τ).read x =
            leaf .finalMatch (.literal (x :: before) []) := by
          rw [read_of_live rfl]
          simp [advance, Leaf.read]
        simp only [cons_mem_words, hread]
        cases s with
        | nil => simp [nil_mem_words, Aspect.of, isMatch, isLive]
        | cons z s =>
          have hno (a : Aspect) : z :: s ∉ (leaf .finalMatch (.literal (x :: before) []) :
              Matcher α τ).words a := notMem_words rfl (by simp)
          simp [hno]
      · have hread : (leaf .undecided (.literal before (x :: rest)) : Matcher α τ).read x =
            leaf .undecided (.literal (x :: before) rest) := by
          rw [read_of_live rfl]
          simp [advance, Leaf.read, hn]
        simpa only [cons_mem_words, hread, List.cons_append, List.cons.injEq, true_and] using ih hn
    · have hread : (leaf .undecided (.literal before (y :: rest)) : Matcher α τ).read x =
          leaf .mismatch (.literal before (y :: rest)) := by
        rw [read_of_live rfl]
        simp [advance, Leaf.read, hx]
      simp only [cons_mem_words, hread]
      cases s with
      | nil => simp [nil_mem_words, Aspect.of, isMatch, isLive, hx]
      | cons z s =>
        have hno (a : Aspect) : z :: s ∉ (leaf .mismatch (.literal before (y :: rest)) :
            Matcher α τ).words a := notMem_words rfl (by simp)
        simp [hno, hx]

theorem mem_words_one (v : α) (s : List α) :
    (s ∈ (one v : Matcher α τ).start.words .complete ↔ s = [v]) ∧
    (s ∈ (one v : Matcher α τ).start.words .live ↔ s = []) := by
  have h := mem_words_of_single (.one v : Leaf α τ) (· = v) (fun _ => rfl) s
  simpa [one, start, Leaf.start] using h

theorem mem_words_satisfying (tag : Nat) (t : τ) (s : List α) :
    (s ∈ (satisfying tag t : Matcher α τ).start.words .complete ↔ ∃ x, passes t x ∧ s = [x]) ∧
    (s ∈ (satisfying tag t : Matcher α τ).start.words .live ↔ s = []) :=
  mem_words_of_single (.satisfying tag t) (passes t ·) (fun _ => rfl) s

theorem mem_words_any (s : List α) :
    (s ∈ (any : Matcher α τ).start.words .complete ↔ ∃ x, s = [x]) ∧
    (s ∈ (any : Matcher α τ).start.words .live ↔ s = []) := by
  have h := mem_words_of_single (.any : Leaf α τ) (fun _ => True) (fun _ => rfl) s
  simpa [any, start, Leaf.start] using h

theorem mem_words_start_literal (text s : List α) :
    (s ∈ (literal text : Matcher α τ).start.words .complete ↔ s = text) ∧
    (s ∈ (literal text : Matcher α τ).start.words .live ↔ ∃ w, w ≠ [] ∧ s ++ w = text) := by
  by_cases ht : text = []
  · subst ht
    obtain ⟨hc, hl⟩ := words_of_finalMatch (m := (literal [] : Matcher α τ).start) rfl
    rw [hc, hl]
    constructor
    · exact Language.mem_one s
    · apply iff_of_false (Language.notMem_zero s)
      intro h
      obtain ⟨w, hw, he⟩ := h
      exact hw (List.append_eq_nil_iff.mp he).2
  · have hstart : (literal text : Matcher α τ).start = leaf .undecided (.literal [] text) := by
      simp [literal, start, Leaf.start, ht]
    rw [hstart]
    exact mem_words_literal ht s

variable {a : Aspect}

theorem mem_words_choice {s : MatchState} {bs live : List (Matcher α τ)} (hs : s.isLive)
    {w : List α} (hw : w ≠ []) : w ∈ (choice s bs live).words a ↔ ∃ b ∈ live, w ∈ b.words a := by
  induction w generalizing s live with
  | nil => contradiction
  | cons x w ih =>
    let moved := live.map (read · x)
    have hstep : (choice s bs live).read x =
        choice (.merge (moved.map state)) bs (moved.filter (·.state.isLive)) := by
      rw [read_of_live (m := choice s bs live) hs, advance, readAll_eq_map]
    have hmoved : (∃ b ∈ live, x :: w ∈ b.words a) ↔ ∃ b ∈ moved, w ∈ b.words a := by
      simp [moved, cons_mem_words]
    rw [cons_mem_words, hstep, hmoved]
    by_cases hn : w = []
    · subst hn
      rw [nil_mem_words, state_choice, aspect_merge]
      simp [nil_mem_words]
    · have hkept : (∃ b ∈ moved, w ∈ b.words a) ↔
          ∃ b ∈ moved.filter (·.state.isLive), w ∈ b.words a := by
        simp only [List.mem_filter]
        constructor
        · intro h
          obtain ⟨b, hb, hw⟩ := h
          exact ⟨b, ⟨hb, live_of_mem_words hn hw⟩, hw⟩
        · intro h
          obtain ⟨b, ⟨hb, -⟩, hw⟩ := h
          exact ⟨b, hb, hw⟩
      rw [hkept]
      cases hl : (merge (moved.map state)).isLive with
      | true => exact ih hl hn
      | false =>
        have hnone : moved.filter (·.state.isLive) = [] := by
          apply List.filter_eq_nil_iff.mpr
          intro b hb
          have hdead := isLive_of_merge (List.mem_map_of_mem hb) hl
          simp [hdead]
        have hno : w ∉ (choice (merge (moved.map state)) bs []).words a := notMem_words hl hn
        simp [hnone, hno]

/-- A choice answers yes where one of its branches does. -/
theorem mem_words_start_choice {bs : List (Matcher α τ)} (h : ∀ b ∈ bs, b.state = b.start.state)
    (s : MatchState) (live : List (Matcher α τ)) {w : List α} :
    w ∈ (choice s bs live).start.words a ↔ ∃ b ∈ bs, w ∈ b.start.words a := by
  have hstart : (choice s bs live).start = choice (.merge (bs.map state)) bs (startLive bs) := rfl
  rw [hstart]
  by_cases hw : w = []
  · subst hw
    rw [nil_mem_words, state_choice, aspect_merge]
    simp only [List.mem_map, exists_exists_and_eq_and]
    exact exists_congr fun b => and_congr_right fun hb => by rw [h b hb, nil_mem_words]
  · have hlive : (∃ b ∈ bs, w ∈ b.start.words a) ↔ ∃ m ∈ startLive bs, w ∈ m.words a := by
      simp only [mem_startLive]
      constructor
      · intro hx
        obtain ⟨b, hb, hm⟩ := hx
        have hlive : b.state.isLive := by
          rw [h b hb]
          exact live_of_mem_words hw hm
        exact ⟨_, ⟨b, hb, hlive, rfl⟩, hm⟩
      · intro hx
        obtain ⟨_, ⟨b, hb, -, rfl⟩, hm⟩ := hx
        exact ⟨b, hb, hm⟩
    rw [hlive]
    cases hl : (merge (bs.map state)).isLive with
    | true => exact mem_words_choice hl hw
    | false =>
      have hnone : startLive bs = [] := by
        apply List.eq_nil_iff_forall_not_mem.mpr
        intro m hm
        obtain ⟨b, hb, hlive, -⟩ := mem_startLive.mp hm
        rw [isLive_of_merge (List.mem_map_of_mem hb) hl] at hlive
        contradiction
      have hno : w ∉ (choice (merge (bs.map state)) bs []).words a := notMem_words hl hw
      simp [hnone, hno]

end Matcher
end IncrementalRegex
