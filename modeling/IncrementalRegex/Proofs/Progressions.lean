import IncrementalRegex.Proofs.Storage

namespace IncrementalRegex

open MatchState

theorem nodup_eraseDups {β : Type} [BEq β] [LawfulBEq β] : ∀ xs : List β, xs.eraseDups.Nodup
  | [] => by simp
  | x :: xs => by
    rw [List.eraseDups_cons, List.nodup_cons]
    exact ⟨by simp [List.mem_eraseDups], nodup_eraseDups _⟩
termination_by xs => xs.length
decreasing_by exact Nat.lt_succ_of_le (List.length_filter_le ..)

/-- The state is live as long as something is listed, if that is so for what each one adds. -/
theorem MatchState.isLive_merge_iff {β γ : Type} {moved : List β} {live : List γ}
    {outcome : β → MatchState} (offspring : β → List γ)
    (hlive : ∀ q, q ∈ live ↔ ∃ p ∈ moved, q ∈ offspring p)
    (h : ∀ p ∈ moved, (outcome p).isLive ↔ offspring p ≠ []) :
    (merge (moved.map outcome)).isLive ↔ live ≠ [] := by
  have hmerge : (merge (moved.map outcome)).isLive ↔ ∃ p ∈ moved, (outcome p).isLive :=
    (aspect_merge .live _).trans (by simp [Aspect.of])
  rw [hmerge]
  constructor
  · intro hp
    obtain ⟨p, hp, hl⟩ := hp
    obtain ⟨q, hq⟩ := List.exists_mem_of_ne_nil _ ((h p hp).mp hl)
    exact List.ne_nil_of_mem ((hlive q).mpr ⟨p, hp, hq⟩)
  · intro hne
    obtain ⟨q, hq⟩ := List.exists_mem_of_ne_nil _ hne
    obtain ⟨p, hp, hq⟩ := (hlive q).mp hq
    exact ⟨p, hp, (h p hp).mpr (List.ne_nil_of_mem hq)⟩

namespace Matcher

variable {α τ : Type}

/-- The lower bound in effect: none, if the body matches without input. -/
def lowerInEffect (t : Matcher α τ) (b : Bounds) : Nat :=
  if b.upper ≠ 0 ∧ t.start.state = .matched then 0 else b.lower

theorem lowerInEffect_le (t : Matcher α τ) (b : Bounds) : lowerInEffect t b ≤ b.lower := by
  unfold lowerInEffect
  split_ifs
  · exact Nat.zero_le _
  · exact Nat.le_refl _

variable [DecidableEq α] [DecidableEq τ] [ItemTest τ α]

/-- Starts, and reads `input` whatever the states on the way. -/
def drive (m : Matcher α τ) (input : List α) : Matcher α τ :=
  input.foldl (fun m x => advance x m) m.start

theorem drive_concat (m : Matcher α τ) (input : List α) (x : α) :
    m.drive (input ++ [x]) = advance x (m.drive input) := by
  simp [drive]

/-- What holds at the start and is kept with every item holds after every input. -/
theorem drive_induction {m : Matcher α τ} {motive : List α → Matcher α τ → Prop}
    (start : motive [] m.start)
    (step : ∀ input m' x, motive input m' → motive (input ++ [x]) (advance x m'))
    (input : List α) : motive input (m.drive input) := by
  induction input using List.reverseRecOn with
  | nil => exact start
  | append_singleton input x ih =>
    rw [drive_concat]
    exact step input _ x ih

theorem live_of_live_feed {m : Matcher α τ} (input : List α)
    (h : (m.feed input).state.isLive) : m.state.isLive := by
  by_cases hn : input = []
  · subst hn
    exact h
  · exact live_of_mem_words (a := .live) hn h

/-- `p` is a copy of `e` that has been started within `input`, has read all that came since, and can
go on. -/
structure Progresses (e : Matcher α τ) (input : List α) (p : Matcher α τ) : Prop where
  live : p.state.isLive
  fed : ∃ since, since <:+ input ∧ e.start.feed since = p

namespace Progresses

variable {e p : Matcher α τ} {input : List α}

theorem started (h : e.start.state.isLive) (input : List α) : Progresses e input e.start :=
  ⟨h, [], List.nil_suffix, rfl⟩

theorem start_eq (h : Progresses e input p) : p.start = e.start := by
  obtain ⟨since, -, rfl⟩ := h.fed
  rw [start_feed, start_start]

theorem live_start (h : Progresses e input p) : e.start.state.isLive := by
  obtain ⟨since, -, rfl⟩ := h.fed
  exact live_of_live_feed since h.live

theorem read (h : Progresses e input p) {x : α} (hl : (p.read x).state.isLive) :
    Progresses e (input ++ [x]) (p.read x) := by
  obtain ⟨since, ⟨before, rfl⟩, rfl⟩ := h.fed
  refine ⟨hl, since ++ [x], ⟨before, (List.append_assoc ..).symm⟩, feed_concat ..⟩

end Progresses

/-- A sequence of `elements` that has read `input`.  A sequence of nothing takes itself to be live
until it has read an item. -/
inductive SequenceAfter (elements : List (Matcher α τ)) (input : List α) : Matcher α τ → Prop where
  | mk {s : MatchState} {live : List (Matcher α τ × Nat)}
    (state : elements ≠ [] → (s.isLive ↔ live ≠ [])) (distinct : live.Nodup)
    (numbered : ∀ p ∈ live, ∃ i e, p.2 = i + 1 ∧ elements[i]? = some e ∧ Progresses e input p.1) :
    SequenceAfter elements input (sequence s (elements.map idle) live)

/-- What is reached among stored elements are the elements, started. -/
theorem progresses_of_mem_reach {elements : List (Matcher α τ)} (j : Nat) {p : Matcher α τ × Nat}
    (h : p ∈ (reach ((elements.map idle).drop j) j).2) (input : List α) :
    ∃ i e, p.2 = i + 1 ∧ elements[i]? = some e ∧ Progresses e input p.1 := by
  obtain ⟨k, d, hk, rfl, hl⟩ := mem_reach h
  rw [List.getElem?_drop, List.getElem?_map] at hk
  obtain ⟨e, he, rfl⟩ := Option.map_eq_some_iff.mp hk
  rw [state_idle] at hl
  refine ⟨j + k, e, rfl, he, ?_⟩
  rw [start_idle]
  exact .started hl input

theorem sequenceAfter_start (elements : List (Matcher α τ)) :
    SequenceAfter elements [] (concat elements) := by
  refine .mk (fun hne => ?_) (nodup_reach _ 0) fun p hp => progresses_of_mem_reach 0 hp []
  rw [List.isEmpty_map, List.isEmpty_eq_false_iff.mpr hne]
  exact isLive_reach_iff _ 0

theorem SequenceAfter.advance {elements : List (Matcher α τ)} {input : List α} {m : Matcher α τ}
    (h : SequenceAfter elements input m) (x : α) :
    SequenceAfter elements (input ++ [x]) (advance x m) := by
  cases h with
  | @mk s live _ _ hnumbered =>
    obtain ⟨live', hstep, hlive⟩ := advance_sequence (elements.map idle) x s live
    have hdistinct : live'.Nodup := by
      rw [Matcher.advance] at hstep
      cases hstep
      exact nodup_eraseDups _
    rw [hstep]
    refine .mk (fun _ => ?_) hdistinct fun q hq => ?_
    · exact isLive_merge_iff _ hlive fun p _ => isLive_sequenceOutcome_iff _ p
    · obtain ⟨_, hmoved, hq⟩ := (hlive q).mp hq
      obtain ⟨p, hp, rfl⟩ := mem_readNumbered.mp hmoved
      rcases mem_sequenceOffspring hq with ⟨hl, rfl⟩ | hq
      · obtain ⟨i, e, hi, he, hp⟩ := hnumbered p hp
        exact ⟨i, e, hi, he, hp.read hl⟩
      · exact progresses_of_mem_reach _ hq _

theorem sequenceAfter_drive (elements : List (Matcher α τ)) (input : List α) :
    SequenceAfter elements input ((concat elements).drive input) := by
  refine drive_induction ?_ (fun _ _ x h => h.advance x) input
  rw [start_concat]
  exact sequenceAfter_start elements

/-- The branches, started and fed `input`, as far as they can go on. -/
def stillLive (branches : List (Matcher α τ)) (input : List α) : List (Matcher α τ) :=
  (branches.map fun b => b.start.feed input).filter fun m => m.state.isLive

/-- A choice among `branches` that has read `input`. -/
inductive ChoiceAfter (branches : List (Matcher α τ)) (input : List α) : Matcher α τ → Prop where
  | mk {s : MatchState} (state : s.isLive ↔ stillLive branches input ≠ []) :
    ChoiceAfter branches input (choice s (branches.map idle) (stillLive branches input))

theorem startLive_map_idle (branches : List (Matcher α τ)) :
    startLive (branches.map idle) = stillLive branches [] := by
  induction branches with
  | nil => rfl
  | cons b bs ih =>
    rw [List.map_cons, startLive, state_idle, start_idle, ih]
    simp only [stillLive, List.map_cons, feed, List.foldl_nil, List.filter_cons]

/-- A branch that has come to an end does not come back. -/
theorem stillLive_concat (branches : List (Matcher α τ)) (input : List α) (x : α) :
    ((stillLive branches input).map (read · x)).filter (fun m => m.state.isLive) =
      stillLive branches (input ++ [x]) := by
  have hdead (m : Matcher α τ) : (m.read x).state.isLive → m.state.isLive :=
    live_of_live_feed [x]
  induction branches with
  | nil => rfl
  | cons b bs ih =>
    simp only [stillLive, List.map_cons, List.filter_cons, feed_concat] at ih ⊢
    have hb := hdead (b.start.feed input)
    cases hl : (b.start.feed input).state.isLive with
    | true => simp only [if_true, List.map_cons, List.filter_cons, ih]
    | false =>
      have hr : ((b.start.feed input).read x).state.isLive = false := by
        simpa [hl] using hb
      simp only [hr, Bool.false_eq_true, if_false, ih]

theorem choiceAfter_start (branches : List (Matcher α τ)) :
    ChoiceAfter branches [] (either branches) := by
  have hstart : either branches =
      choice (merge ((branches.map idle).map state)) (branches.map idle)
        (stillLive branches []) := by
    rw [either, start, startLive_map_idle]
  rw [hstart]
  refine .mk (isLive_merge_iff (fun m => if m.state.isLive then [m.start] else [])
    (fun q => ?_) fun m _ => ?_)
  · rw [← startLive_map_idle, mem_startLive]
    refine exists_congr fun b => and_congr_right fun _ => ?_
    split_ifs with hl
    · simp [hl, eq_comm]
    · simp [hl]
  · split_ifs with hl <;> simp [hl]

theorem ChoiceAfter.advance {branches : List (Matcher α τ)} {input : List α} {m : Matcher α τ}
    (h : ChoiceAfter branches input m) (x : α) :
    ChoiceAfter branches (input ++ [x]) (advance x m) := by
  obtain ⟨-⟩ := h
  rw [Matcher.advance, readAll_eq_map, stillLive_concat]
  refine .mk (isLive_merge_iff (fun m => if m.state.isLive then [m] else [])
    (fun q => ?_) fun m _ => ?_)
  · rw [← stillLive_concat, List.mem_filter]
    constructor
    · intro hq
      exact ⟨q, hq.1, by rw [if_pos hq.2]; exact List.mem_singleton_self q⟩
    · intro hq
      obtain ⟨p, hp, hq⟩ := hq
      split_ifs at hq with hl
      · obtain rfl := List.mem_singleton.mp hq
        exact ⟨hp, hl⟩
      · cases hq
  · split_ifs with hl <;> simp [hl]

theorem choiceAfter_drive (branches : List (Matcher α τ)) (input : List α) :
    ChoiceAfter branches input ((either branches).drive input) := by
  refine drive_induction ?_ (fun _ _ x h => h.advance x) input
  rw [start_either]
  exact choiceAfter_start branches

/-- A repetition of `body` that has read `input`. -/
inductive RepetitionAfter (body : Matcher α τ) (b : Bounds) (input : List α) :
    Matcher α τ → Prop where
  | mk {s : MatchState} {live : List (Matcher α τ × Nat)} (state : s.isLive ↔ live ≠ [])
    (distinct : live.Nodup)
    (numbered : ∀ p ∈ live, Progresses body input p.1 ∧ 1 ≤ p.2 ∧ p.2 ≤ b.upper ∧
      (b.isUnbounded → p.2 ≤ max (lowerInEffect body b) 1)) :
    RepetitionAfter body b input (repetition s body.idle b (lowerInEffect body b) live)

theorem one_le_next (b : Bounds) (n c : Nat) : 1 ≤ b.next n c := by
  have hu : 1 ≤ unbounded := by decide
  unfold Bounds.next
  split_ifs <;> omega

theorem repetitionAfter_start (body : Matcher α τ) (b : Bounds) :
    RepetitionAfter body b [] (replicate body b) := by
  have hended {s : MatchState} {n : Nat} (hn : lowerInEffect body b = n) (hs : s.isLive = false) :
      RepetitionAfter body b [] (repetition s body.idle b n []) := by
    subst hn
    exact .mk (by simp [hs]) List.nodup_nil (List.forall_mem_nil _)
  have hwaiting {s : MatchState} {n : Nat} (hn : lowerInEffect body b = n) (hs : s.isLive)
      (hbody : body.start.state.isLive) (hu : b.upper ≠ 0) :
      RepetitionAfter body b [] (repetition s body.idle b n [(body.idle.start, 1)]) := by
    subst hn
    refine .mk (by simp [hs]) (List.nodup_singleton _) (List.forall_mem_singleton.mpr ?_)
    rw [start_idle]
    exact ⟨.started hbody [], Nat.le_refl 1, Nat.pos_of_ne_zero hu, fun _ => Nat.le_max_right ..⟩
  rw [replicate, start, state_idle]
  by_cases hu : b.upper = 0
  · rw [if_pos hu]
    exact hended (by simp [lowerInEffect, hu]) rfl
  · rw [if_neg hu]
    cases hs : body.start.state with
    | finalMatch | mismatch => exact hended (by simp [lowerInEffect, hs]) rfl
    | undecided =>
      refine hwaiting (by simp [lowerInEffect, hs]) ?_ (by rw [hs]; rfl) hu
      split_ifs <;> rfl
    | matched => exact hwaiting (by simp [lowerInEffect, hs, hu]) rfl (by rw [hs]; rfl) hu

theorem RepetitionAfter.advance {body : Matcher α τ} {b : Bounds} {input : List α}
    {m : Matcher α τ} (h : RepetitionAfter body b input m) (x : α) :
    RepetitionAfter body b (input ++ [x]) (advance x m) := by
  cases h with
  | @mk s live _ _ hnumbered =>
    have hlower : lowerInEffect body b ≤ b.upper :=
      (lowerInEffect_le body b).trans b.lower_le_upper
    obtain ⟨live', hstep, hlive⟩ := advance_repetition body.idle b (lowerInEffect body b) x s live
    have hdistinct : live'.Nodup := by
      rw [Matcher.advance] at hstep
      cases hstep
      exact nodup_eraseDups _
    rw [hstep]
    refine .mk ?_ hdistinct fun q hq => ?_
    · exact isLive_merge_iff _ hlive fun p _ => isLive_repetitionOutcome_iff _ hlower p
    · obtain ⟨_, hmoved, hq⟩ := (hlive q).mp hq
      obtain ⟨p, hp, rfl⟩ := mem_readNumbered.mp hmoved
      obtain ⟨hprogress, hone, hwithin, hsettled⟩ := hnumbered p hp
      rcases mem_repetitionOffspring hq with ⟨hl, rfl⟩ | ⟨hc, hstart, hnext⟩
      · exact ⟨hprogress.read hl, hone, hwithin, hsettled⟩
      · have hbody : q.1 = body.start := by
          rcases hstart with hstart | hstart
          · rw [hstart, start_read, hprogress.start_eq]
          · rw [hstart, start_idle]
        rw [hbody, hnext]
        have hlt : p.2 < b.upper := lt_of_le_of_ne hwithin hc
        exact ⟨.started hprogress.live_start _, one_le_next .., next_le_upper hlt, next_settled⟩

theorem repetitionAfter_drive (body : Matcher α τ) (b : Bounds) (input : List α) :
    RepetitionAfter body b input ((replicate body b).drive input) := by
  refine drive_induction ?_ (fun _ _ x h => h.advance x) input
  rw [start_replicate]
  exact repetitionAfter_start body b

/-- A matcher of parts with nothing left to progress in it. -/
inductive Ended : Matcher α τ → Prop where
  | sequence (s : MatchState) (es : List (Matcher α τ)) : Ended (sequence s es [])
  | choice (s : MatchState) (bs : List (Matcher α τ)) : Ended (choice s bs [])
  | repetition (s : MatchState) (t : Matcher α τ) (b : Bounds) (n : Nat) :
    Ended (repetition s t b n [])

theorem Ended.advance_eq {m : Matcher α τ} (h : m.Ended) (x : α) :
    advance x m = m.withState .mismatch := by
  cases h <;> simp [advance, readNumbered, readAll, withState, merge]

/-- Where a terminal state is the end of all progress, reading with and without regard to the state
is the same. -/
theorem drive_eq_feed {m : Matcher α τ}
    (h : ∀ input, (m.drive input).state.isLive = false → (m.drive input).Ended) (input : List α) :
    m.drive input = m.start.feed input := by
  induction input using List.reverseRecOn with
  | nil => rfl
  | append_singleton input x ih =>
    rw [drive_concat, feed_concat, ← ih, read]
    split_ifs with hl
    · rfl
    · exact (h input (by simpa using hl)).advance_eq x

theorem SequenceAfter.ended {elements : List (Matcher α τ)} {input : List α} {m : Matcher α τ}
    (h : SequenceAfter elements input m) (ht : m.state.isLive = false) : m.Ended := by
  cases h with
  | @mk s live hstate _ hnumbered =>
    have hnil : live = [] := by
      by_cases hne : elements = []
      · refine List.eq_nil_iff_forall_not_mem.mpr fun p hp => ?_
        obtain ⟨i, e, -, he, -⟩ := hnumbered p hp
        simp [hne] at he
      · exact eq_nil_of_not_live (hstate hne) ht
    rw [hnil]
    exact .sequence ..

theorem ChoiceAfter.ended {branches : List (Matcher α τ)} {input : List α} {m : Matcher α τ}
    (h : ChoiceAfter branches input m) (ht : m.state.isLive = false) : m.Ended := by
  obtain ⟨hstate⟩ := h
  rw [eq_nil_of_not_live hstate ht]
  exact .choice ..

theorem RepetitionAfter.ended {body : Matcher α τ} {b : Bounds} {input : List α}
    {m : Matcher α τ} (h : RepetitionAfter body b input m) (ht : m.state.isLive = false) :
    m.Ended := by
  obtain ⟨hstate, -, -⟩ := h
  rw [eq_nil_of_not_live hstate ht]
  exact .repetition ..

theorem drive_concat_eq_feed (elements : List (Matcher α τ)) (input : List α) :
    (concat elements).drive input = (concat elements).start.feed input :=
  drive_eq_feed (fun input => (sequenceAfter_drive elements input).ended) input

theorem drive_either_eq_feed (branches : List (Matcher α τ)) (input : List α) :
    (either branches).drive input = (either branches).start.feed input :=
  drive_eq_feed (fun input => (choiceAfter_drive branches input).ended) input

theorem drive_replicate_eq_feed (body : Matcher α τ) (b : Bounds) (input : List α) :
    (replicate body b).drive input = (replicate body b).start.feed input :=
  drive_eq_feed (fun input => (repetitionAfter_drive body b input).ended) input

/-- After a terminal state there are only mismatches, even if the matcher reads on. -/
def StaysEnded (m : Matcher α τ) : Prop :=
  ∀ input, (m.drive input).state.isLive = false →
    ∀ more, more ≠ [] → (m.drive (input ++ more)).state = .mismatch

theorem staysEnded_of_drive_eq_feed {m : Matcher α τ}
    (h : ∀ input, m.drive input = m.start.feed input) : m.StaysEnded := by
  intro input ht more hmore
  rw [h] at ht ⊢
  rw [feed_append]
  exact state_feed_of_not_live ht hmore

/-- What sequences, choices and repetitions of any parts have listed once they have been started and
have read an input, terminal states or not. -/
theorem progressions_of_drive (input : List α) :
    (∀ elements : List (Matcher α τ), elements ≠ [] →
      SequenceAfter elements input ((concat elements).drive input) ∧
        (concat elements).StaysEnded) ∧
    (∀ branches : List (Matcher α τ),
      ChoiceAfter branches input ((either branches).drive input) ∧ (either branches).StaysEnded) ∧
    ∀ (body : Matcher α τ) (b : Bounds),
      RepetitionAfter body b input ((replicate body b).drive input) ∧
        (replicate body b).StaysEnded := by
  refine ⟨fun elements _ => ?_, fun branches => ?_, fun body b => ?_⟩
  · exact ⟨sequenceAfter_drive elements input,
      staysEnded_of_drive_eq_feed (drive_concat_eq_feed elements)⟩
  · exact ⟨choiceAfter_drive branches input,
      staysEnded_of_drive_eq_feed (drive_either_eq_feed branches)⟩
  · exact ⟨repetitionAfter_drive body b input,
      staysEnded_of_drive_eq_feed (drive_replicate_eq_feed body b)⟩

/-- Two items among which the second element may begin: it progresses beside the first one. -/
theorem progressions_of_any_before_one :
    let elements : List (Matcher Int Interval) := [replicate any (.atLeast 0), one 1]
    let m := (concat elements).drive [3, 2]
    elements ≠ [] ∧ SequenceAfter elements [3, 2] m ∧ m.progressions.length = 2 ∧
      (concat elements).StaysEnded := by
  intro elements m
  have hne : elements ≠ [] := by simp [elements]
  obtain ⟨hafter, hended⟩ := (progressions_of_drive [3, 2]).1 elements hne
  exact ⟨hne, hafter, by decide, hended⟩

end Matcher
end IncrementalRegex
