import IncrementalRegex.Proofs.Progress

namespace IncrementalRegex.Matcher

open MatchState

variable {α τ : Type}

/-- A part as combinators hold it: its state is that before any item, and something may match. -/
structure Part (m : Matcher α τ) : Prop where
  state_eq : m.state = m.start.state
  possible : m.state ≠ .mismatch

theorem part_idle {m : Matcher α τ} (h : m.start.state ≠ .mismatch) : m.idle.Part where
  state_eq := by rw [state_idle, start_idle]
  possible := by rwa [state_idle]

theorem parts_map_idle {ms : List (Matcher α τ)} (h : ∀ m ∈ ms, m.start.state ≠ .mismatch) :
    ∀ e ∈ ms.map idle, e.Part := by
  intro e he
  obtain ⟨m, hm, rfl⟩ := List.mem_map.mp he
  exact part_idle (h m hm)

theorem parts_drop {es : List (Matcher α τ)} (h : ∀ e ∈ es, e.Part) (i : Nat) :
    ∀ e ∈ es.drop i, e.Part := fun e he => h e (List.mem_of_mem_drop he)

theorem reach_ne_mismatch {es : List (Matcher α τ)} (h : ∀ e ∈ es, e.Part) (i : Nat) :
    (reach es i).1 ≠ .mismatch := by
  induction es generalizing i with
  | nil => simp [reach]
  | cons e es ih =>
    obtain ⟨hpart, hparts⟩ := List.forall_mem_cons.mp h
    have hrest := ih hparts (i + 1)
    have hp := hpart.possible
    simp only [reach]
    cases he : e.state with
    | mismatch => contradiction
    | undecided => simp
    | finalMatch => exact hrest
    | matched => rcases hr : reach es (i + 1) with ⟨_ | _ | _ | _, live⟩ <;> simp_all

theorem aspect_reach_cons (a : Aspect) {e : Matcher α τ} {es : List (Matcher α τ)}
    (h : ∀ d ∈ e :: es, d.Part) (i : Nat) :
    a.of (reach (e :: es) i).1 ↔
      (a = .live ∧ e.state.isLive) ∨ (e.state.isMatch ∧ a.of (reach es (i + 1)).1) := by
  obtain ⟨hpart, hparts⟩ := List.forall_mem_cons.mp h
  have hrest := reach_ne_mismatch hparts (i + 1)
  have hp := hpart.possible
  rcases hr : reach es (i + 1) with ⟨s, live⟩
  rw [hr] at hrest
  cases he : e.state <;> cases s <;> cases a <;>
    simp_all [reach, Aspect.of, isMatch, isLive]

theorem mem_reach_cons {e : Matcher α τ} {es : List (Matcher α τ)}
    (h : ∀ d ∈ e :: es, d.Part) (i : Nat) (p : Matcher α τ × Nat) :
    p ∈ (reach (e :: es) i).2 ↔
      (e.state.isLive ∧ p = (e.start, i + 1)) ∨ (e.state.isMatch ∧ p ∈ (reach es (i + 1)).2) := by
  obtain ⟨hpart, hparts⟩ := List.forall_mem_cons.mp h
  have hrest := reach_ne_mismatch hparts (i + 1)
  have hp := hpart.possible
  rcases hr : reach es (i + 1) with ⟨s, live⟩
  rw [hr] at hrest
  cases he : e.state <;> cases s <;> simp_all [reach, isMatch, isLive]

/-- What is started from an element on is that element, if it waits for items, and what is started
from the next one on. -/
theorem reach_cons_sublist (e : Matcher α τ) (es : List (Matcher α τ)) (i : Nat) :
    (reach (e :: es) i).2.Sublist
      ((if e.state.isLive then [(e.start, i + 1)] else []) ++ (reach es (i + 1)).2) := by
  rw [reach]
  cases e.state with
  | mismatch => exact List.nil_sublist _
  | undecided => exact List.sublist_append_left ..
  | finalMatch => exact List.Sublist.refl _
  | matched =>
    rcases reach es (i + 1) with ⟨_ | _ | _ | _, live⟩
    · exact List.Sublist.refl _
    · exact List.Sublist.refl _
    · exact List.nil_sublist _
    · exact List.Sublist.refl _

/-- The progressions that are started are in elements that wait for items, each with its number. -/
theorem mem_reach {es : List (Matcher α τ)} {i : Nat} {p : Matcher α τ × Nat}
    (h : p ∈ (reach es i).2) :
    ∃ k e, es[k]? = some e ∧ p = (e.start, i + k + 1) ∧ e.state.isLive := by
  induction es generalizing i with
  | nil => cases h
  | cons e es ih =>
    rcases List.mem_append.mp ((reach_cons_sublist e es i).subset h) with h | h
    · split_ifs at h with hl
      · exact ⟨0, e, rfl, List.mem_singleton.mp h, hl⟩
      · cases h
    · obtain ⟨k, d, hk, hp, hl⟩ := ih h
      exact ⟨k + 1, d, hk, by rw [hp, Nat.add_right_comm i 1 k, Nat.add_assoc i k 1], hl⟩

theorem start_of_mem_reach {es : List (Matcher α τ)} {i : Nat} {p : Matcher α τ × Nat}
    (h : p ∈ (reach es i).2) : ∃ e ∈ es, e.start = p.1 := by
  obtain ⟨k, e, he, rfl, -⟩ := mem_reach h
  exact ⟨e, List.mem_of_getElem? he, rfl⟩

theorem nodup_reach (es : List (Matcher α τ)) (i : Nat) : (reach es i).2.Nodup := by
  induction es generalizing i with
  | nil => exact List.nodup_nil
  | cons e es ih =>
    refine (reach_cons_sublist e es i).nodup (List.nodup_append.mpr ⟨?_, ih (i + 1), ?_⟩)
    · split_ifs <;> simp
    · intro p hp q hq he
      obtain ⟨k, d, -, hq, -⟩ := mem_reach hq
      split_ifs at hp
      · have hnumber := congrArg Prod.snd ((List.mem_singleton.mp hp).symm.trans (he.trans hq))
        simp only at hnumber
        omega
      · cases hp

theorem isLive_reach_iff (es : List (Matcher α τ)) (i : Nat) :
    (reach es i).1.isLive ↔ (reach es i).2 ≠ [] := by
  induction es generalizing i with
  | nil => simp [reach, isLive]
  | cons e es ih =>
    have hrest := ih (i + 1)
    rw [reach]
    cases e.state with
    | mismatch => simp [isLive]
    | undecided => simp [isLive]
    | finalMatch => exact hrest
    | matched => rcases hr : reach es (i + 1) with ⟨_ | _ | _ | _, live⟩ <;> simp_all [isLive]

def sequenceOffspring (es : List (Matcher α τ)) (p : Matcher α τ × Nat) :
    List (Matcher α τ × Nat) :=
  (if p.1.state.isLive then [p] else []) ++ sequenceSpawn es p

theorem mem_sequenceOffspring {es : List (Matcher α τ)} {p q : Matcher α τ × Nat}
    (h : q ∈ sequenceOffspring es p) :
    (p.1.state.isLive ∧ q = p) ∨ q ∈ (reach (es.drop p.2) p.2).2 := by
  obtain ⟨m, i⟩ := p
  rcases List.mem_append.mp h with h | h
  · split_ifs at h with hl
    · exact .inl ⟨hl, List.mem_singleton.mp h⟩
    · cases h
  · rw [sequenceSpawn] at h
    split_ifs at h
    · exact .inr h
    · cases h

theorem isLive_sequenceOutcome_iff (es : List (Matcher α τ)) (p : Matcher α τ × Nat) :
    (sequenceOutcome es p).isLive ↔ sequenceOffspring es p ≠ [] := by
  obtain ⟨m, i⟩ := p
  simp only [sequenceOutcome, sequenceOffspring, sequenceSpawn]
  cases m.state with
  | matched => simp only [isLive]; split_ifs <;> simp
  | finalMatch => simpa [isLive, isMatch] using isLive_reach_iff (es.drop i) i
  | undecided => simp [isLive, isMatch]
  | mismatch => simp [isLive, isMatch]

variable [DecidableEq α] [DecidableEq τ] [ItemTest τ α] {a : Aspect}

/-- The inputs for which the elements `es`, one after the other, answer yes. -/
def following (a : Aspect) : List (Matcher α τ) → Language α
  | [] => if a = .complete then 1 else 0
  | e :: es => (if a = .live then e.start.words .live else 0) +
      e.start.words .complete * following a es

theorem mem_following_cons {e : Matcher α τ} {es : List (Matcher α τ)} {s : List α} :
    s ∈ following a (e :: es) ↔ (a = .live ∧ s ∈ e.start.words .live) ∨
      ∃ u v, u ∈ e.start.words .complete ∧ v ∈ following a es ∧ u ++ v = s := by
  rw [following, Language.mem_add, Language.mem_mul]
  apply or_congr
  · cases a <;> simp
  · constructor
    · intro h
      obtain ⟨u, hu, v, hv, he⟩ := h
      exact ⟨u, v, hu, hv, he⟩
    · intro h
      obtain ⟨u, v, hu, hv, he⟩ := h
      exact ⟨u, hu, v, hv, he⟩

theorem nil_mem_following {es : List (Matcher α τ)} (h : ∀ e ∈ es, e.Part) (i : Nat) :
    [] ∈ following a es ↔ a.of (reach es i).1 := by
  induction es generalizing i with
  | nil => cases a <;> simp [following, reach, Aspect.of, isMatch, isLive, Language.notMem_zero]
  | cons e es ih =>
    obtain ⟨hpart, hparts⟩ := List.forall_mem_cons.mp h
    rw [mem_following_cons, aspect_reach_cons a h i, hpart.state_eq, ← ih hparts (i + 1)]
    apply or_congr Iff.rfl
    constructor
    · intro hm
      obtain ⟨u, v, hu, hv, he⟩ := hm
      obtain ⟨rfl, rfl⟩ := List.append_eq_nil_iff.mp he
      exact ⟨hu, hv⟩
    · intro hm
      obtain ⟨hu, hv⟩ := hm
      exact ⟨[], [], hu, hv, rfl⟩

/-- What an input that is not empty does to the elements from number `i` on is told by those of them
that are reached without input. -/
theorem mem_following_iff_reach {all es : List (Matcher α τ)} (h : ∀ e ∈ all, e.Part) {i : Nat}
    (he : all.drop i = es) {s : List α} (hs : s ≠ []) :
    s ∈ following a es ↔
      ∃ p ∈ (reach es i).2, s ∈ carry a (fun j => following a (all.drop j)) p := by
  induction es generalizing i with
  | nil => cases a <;> simp [following, reach, hs, Language.notMem_zero]
  | cons e es ih =>
    have hparts : ∀ d ∈ e :: es, d.Part := by
      rw [← he]
      exact parts_drop h i
    have htail : all.drop (i + 1) = es := by
      rw [← List.tail_drop, he]
      rfl
    have hstate : e.state = e.start.state := (hparts e List.mem_cons_self).state_eq
    have hlive {b : Aspect} {u : List α} (hn : u ≠ []) (hu : u ∈ e.start.words b) :
        e.state.isLive := by
      rw [hstate]
      exact live_of_mem_words hn hu
    simp only [mem_following_cons, mem_reach_cons hparts, or_and_right, exists_or]
    constructor
    · intro hx
      rcases hx with ⟨ha, hw⟩ | ⟨u, v, hu, hv, rfl⟩
      · exact Or.inl ⟨_, ⟨hlive hs hw, rfl⟩, Or.inl ⟨ha, hw⟩⟩
      · by_cases hn : u = []
        · subst hn
          have hm : e.state.isMatch := by
            rw [hstate]
            exact hu
          obtain ⟨p, hp, hc⟩ := (ih htail).mp hv
          exact Or.inr ⟨p, ⟨hm, hp⟩, hc⟩
        · refine Or.inl ⟨_, ⟨hlive hn hu, rfl⟩, Or.inr ⟨u, v, hn, hu, ?_, rfl⟩⟩
          simpa only [htail] using hv
    · intro hx
      rcases hx with ⟨_, ⟨-, rfl⟩, ⟨ha, hw⟩ | ⟨u, v, -, hu, hv, rfl⟩⟩ | ⟨p, ⟨hm, hp⟩, hc⟩
      · exact Or.inl ⟨ha, hw⟩
      · exact Or.inr ⟨u, v, hu, by simpa only [htail] using hv, rfl⟩
      · have hnil : [] ∈ e.start.words .complete := by
          rw [nil_mem_words, ← hstate]
          exact hm
        exact Or.inr ⟨[], s, hnil, (ih htail).mpr ⟨p, hp, hc⟩, rfl⟩

theorem aspect_sequenceOutcome {es : List (Matcher α τ)} (h : ∀ e ∈ es, e.Part)
    (p : Matcher α τ × Nat) :
    a.of (sequenceOutcome es p) ↔ [] ∈ carryOn a (fun j => following a (es.drop j)) p := by
  obtain ⟨m, i⟩ := p
  rw [mem_carryOn, nil_mem_carry, nil_mem_following (parts_drop h i) i]
  simp only [sequenceOutcome]
  cases m.state <;> cases (reach (es.drop i) i).1 <;> cases a <;>
    simp [Aspect.of, isMatch, isLive]

theorem advance_sequence (es : List (Matcher α τ)) (x : α) (s : MatchState)
    (live : List (Matcher α τ × Nat)) :
    ∃ live', advance x (sequence s es live) =
        sequence (.merge ((readNumbered x live).map (sequenceOutcome es))) es live' ∧
      ∀ q, q ∈ live' ↔ ∃ p ∈ readNumbered x live, q ∈ sequenceOffspring es p := by
  refine ⟨_, by rw [advance], ?_⟩
  intro q
  simp only [List.mem_eraseDups, List.mem_append, List.mem_filter, List.mem_flatMap,
    sequenceOffspring]
  grind

theorem mem_carryOn_sequence {es : List (Matcher α τ)} (h : ∀ e ∈ es, e.Part)
    (p : Matcher α τ × Nat) {s : List α} (hs : s ≠ []) :
    s ∈ carryOn a (fun j => following a (es.drop j)) p ↔
      ∃ q ∈ sequenceOffspring es p, s ∈ carry a (fun j => following a (es.drop j)) q := by
  obtain ⟨m, i⟩ := p
  simp only [mem_carryOn, mem_following_iff_reach h rfl hs, sequenceOffspring, sequenceSpawn,
    List.mem_append, or_and_right, exists_or]
  apply or_congr
  · constructor
    · intro hc
      exact ⟨_, by rw [if_pos (live_of_mem_carry hs hc)]; exact List.mem_singleton_self _, hc⟩
    · intro hm
      obtain ⟨q, hq, hc⟩ := hm
      split_ifs at hq
      · rwa [List.mem_singleton.mp hq] at hc
      · contradiction
  · cases m.state.isMatch <;> simp

theorem combines_sequence {es : List (Matcher α τ)} (h : ∀ e ∈ es, e.Part) :
    Combines a (fun j => following a (es.drop j)) (fun s => sequence s es) (sequenceOutcome es)
      (sequenceOffspring es) (fun _ => True) where
  state _ _ := rfl
  step := advance_sequence es
  valid_read _ _ _ := trivial
  valid _ _ _ _ := trivial
  now p _ := aspect_sequenceOutcome h p
  later p _ _ hs := mem_carryOn_sequence h p hs
  terminal p _ := eq_nil_of_not_live (isLive_sequenceOutcome_iff es p)

/-- A sequence answers yes where its elements do, one after the other.  A sequence of nothing takes
itself to be live until it has read an item. -/
theorem words_start_sequence {es : List (Matcher α τ)} (h : ∀ e ∈ es, e.Part) (s : MatchState)
    (live : List (Matcher α τ × Nat)) (hne : a = .complete ∨ es ≠ []) :
    (sequence s es live).start.words a = following a es := by
  have hstart : (sequence s es live).start =
      sequence (if es.isEmpty then .matched else (reach es 0).1) es (reach es 0).2 := rfl
  rw [hstart]
  generalize hs : (if es.isEmpty then MatchState.matched else (reach es 0).1) = st
  ext w
  by_cases hw : w = []
  · have hst : a.of st ↔ a.of (reach es 0).1 := by
      cases es with
      | nil =>
        obtain rfl := hne.resolve_right (by simp)
        rw [← hs]
        exact Iff.rfl
      | cons e es => rw [← hs]; rfl
    rw [hw, nil_mem_words, nil_mem_following h 0]
    exact hst
  · rw [mem_following_iff_reach h List.drop_zero hw]
    cases hl : st.isLive with
    | true => exact (combines_sequence h).mem_words (fun _ _ => trivial) hl hw
    | false =>
      have hr : (reach es 0).2 = [] := by
        cases es with
        | nil => rfl
        | cons e es => exact eq_nil_of_not_live (isLive_reach_iff _ 0) (by rw [← hl, ← hs]; rfl)
      have hno : w ∉ (sequence st es []).words a := notMem_words hl hw
      simp [hr, hno]

theorem following_complete (es : List (Matcher α τ)) :
    following .complete es = (es.map fun e => e.start.words .complete).prod := by
  induction es with
  | nil => rfl
  | cons e es ih => simp [following, ih]

end IncrementalRegex.Matcher
