import IncrementalRegex.Proofs.Progressions
import Mathlib.Algebra.Order.BigOperators.Group.List
import Mathlib.Data.List.Permutation
import Mathlib.Data.Set.Card

namespace IncrementalRegex

theorem encard_le_length {β : Type} {s : Set β} {values : List β} (h : ∀ x ∈ s, x ∈ values) :
    s.encard ≤ values.length := by
  classical
  calc s.encard ≤ (values.toFinset : Set β).encard :=
        Set.encard_le_encard fun x hx => by simpa using h x hx
    _ = values.toFinset.card := Set.encard_coe_eq_coe_finsetCard _
    _ ≤ values.length := by exact_mod_cast values.toFinset_card_le

theorem length_le_encard {β : Type} {s : Set β} {values : List β} (hd : values.Nodup)
    (h : ∀ x ∈ values, x ∈ s) : (values.length : ℕ∞) ≤ s.encard := by
  classical
  calc (values.length : ℕ∞) = values.toFinset.card := by rw [List.toFinset_card_of_nodup hd]
    _ = (values.toFinset : Set β).encard := (Set.encard_coe_eq_coe_finsetCard _).symm
    _ ≤ s.encard := Set.encard_le_encard fun x hx => h x (by simpa using hx)

/-- Out of `k` items no more lists can be put together in which no item comes twice. -/
def arrangements (k : Nat) : Nat := 2 ^ k * k.factorial

theorem le_arrangements (k : Nat) : k ≤ arrangements k :=
  k.lt_two_pow_self.le.trans (Nat.le_mul_of_pos_right _ k.factorial_pos)

theorem arrangements_mono {j k : Nat} (h : j ≤ k) : arrangements j ≤ arrangements k :=
  Nat.mul_le_mul (Nat.pow_le_pow_right Nat.zero_lt_two h) (Nat.factorial_le h)

theorem length_arrangements_le {β : Type} (pool : List β) :
    (pool.sublists.flatMap List.permutations).length ≤ arrangements pool.length := by
  rw [List.length_flatMap]
  have hsum := List.sum_le_card_nsmul (pool.sublists.map fun l => l.permutations.length)
    pool.length.factorial fun n hn => by
      obtain ⟨l, hl, rfl⟩ := List.mem_map.mp hn
      rw [List.length_permutations]
      exact Nat.factorial_le (List.mem_sublists.mp hl).length_le
  rwa [List.length_map, List.length_sublists, Nat.nsmul_eq_mul] at hsum

theorem encard_nodup_le {β : Type} {pool : Set β} {k : Nat} (h : pool.encard ≤ k) :
    {l : List β | l.Nodup ∧ ∀ x ∈ l, x ∈ pool}.encard ≤ arrangements k := by
  have hfin : pool.Finite := Set.finite_of_encard_le_coe h
  let items := hfin.toFinset.toList
  have hk : items.length ≤ k := by
    rw [Finset.length_toList, ← Nat.cast_le (α := ℕ∞), ← hfin.encard_eq_coe_toFinset_card]
    exact h
  have hlists : ∀ l ∈ {l : List β | l.Nodup ∧ ∀ x ∈ l, x ∈ pool},
      l ∈ items.sublists.flatMap List.permutations := by
    intro l hl
    have hsub : l ⊆ items := fun x hx => by simpa [items] using hl.2 x hx
    obtain ⟨l', hperm, hl'⟩ := hl.1.subperm hsub
    exact List.mem_flatMap.mpr ⟨l', List.mem_sublists.mpr hl', List.mem_permutations.mpr hperm.symm⟩
  refine (encard_le_length hlists).trans ?_
  exact_mod_cast (length_arrangements_le items).trans (arrangements_mono hk)

theorem MatchState.encard_univ_le : (Set.univ : Set MatchState).encard ≤ 4 := by
  have hmem : ∀ s ∈ (Set.univ : Set MatchState),
      s ∈ [MatchState.matched, .finalMatch, .mismatch, .undecided] := by
    intro s _
    cases s <;> simp
  exact encard_le_length hmem

/-- Out of a state and one of `k` items at most four times `k` things can be made. -/
theorem encard_le_of_states {β γ : Type} {items : Set β} {k : Nat} (hk : items.encard ≤ k)
    (build : MatchState → β → γ) {made : Set γ}
    (h : ∀ m ∈ made, ∃ s, ∃ x ∈ items, m = build s x) : made.encard ≤ (4 * k : Nat) := by
  have himage : made ⊆ (fun q : MatchState × β => build q.1 q.2) '' (Set.univ ×ˢ items) := by
    intro m hm
    obtain ⟨s, x, hx, rfl⟩ := h m hm
    exact ⟨(s, x), ⟨trivial, hx⟩, rfl⟩
  calc made.encard ≤ (Set.univ ×ˢ items : Set (MatchState × β)).encard :=
        (Set.encard_le_encard himage).trans (Set.encard_image_le ..)
    _ ≤ 4 * k := by
        rw [Set.encard_prod]
        exact mul_le_mul' MatchState.encard_univ_le hk
    _ = (4 * k : Nat) := (Nat.cast_mul 4 k).symm

/-- The length of a text. -/
def Leaf.length {α τ : Type} : Leaf α τ → Nat
  | literal before rest => before.length + rest.length
  | one _ | satisfying _ _ | any => 0

/-- The leaves that one becomes by reading. -/
def Leaf.places {α τ : Type} : Leaf α τ → List (Leaf α τ)
  | literal before rest =>
    let text := before.reverse ++ rest
    (List.range (text.length + 1)).map fun k => literal (text.take k).reverse (text.drop k)
  | one v => [one v]
  | satisfying tag t => [satisfying tag t]
  | any => [any]

theorem Leaf.length_places {α τ : Type} (l : Leaf α τ) : l.places.length = l.length + 1 := by
  cases l <;> simp [places, length]

theorem Leaf.mem_places {α τ : Type} {l l' : Leaf α τ} (h : l'.start.2 = l.start.2) :
    l' ∈ l.places := by
  cases l with
  | one | satisfying | any => cases l' <;> simp_all [start, places]
  | literal before rest =>
    cases l' with
    | literal before' rest' =>
      have htext : before'.reverse ++ rest' = before.reverse ++ rest := (literal.inj h).2
      rw [places, ← htext]
      refine List.mem_map.mpr ⟨before'.length, ?_, ?_⟩
      · rw [List.mem_range, List.length_append, List.length_reverse]
        omega
      · rw [List.take_left' List.length_reverse, List.drop_left' List.length_reverse,
          List.reverse_reverse]
    | one | satisfying | any => cases h

/-- The numbers that repetitions can have go from 1 to the upper bound, or without one to that from
which on numbers make no difference. -/
def Bounds.countRange (b : Bounds) : Nat := max (if b.isUnbounded then b.lower else b.upper) 1

namespace Matcher

open MatchState

variable {α τ : Type}

mutual

/-- As many matchers as a tree can become by reading, or more.  It is told by the lengths of its
texts, the parts of its combinators and the bounds of its repetitions. -/
def capacity : Matcher α τ → Nat
  | leaf _ l => 4 * (l.length + 1)
  | sequence _ es _ => 4 * arrangements (capacities es)
  | choice _ bs _ => 4 * arrangements (capacities bs)
  | repetition _ t b _ _ => 4 * arrangements (capacity t * b.countRange)
termination_by structural m => m

def capacities : List (Matcher α τ) → Nat
  | [] => 0
  | m :: ms => capacity m + capacities ms
termination_by structural ms => ms

end

theorem capacity_withoutProgress (m : Matcher α τ) : m.withoutProgress.capacity = m.capacity := by
  cases m <;> rfl

theorem capacity_start (m : Matcher α τ) : m.start.capacity = m.capacity := by
  cases m with
  | leaf s l => cases l <;> simp [start, Leaf.start, capacity, Leaf.length]
  | sequence | choice => rfl
  | repetition s t b n live =>
    obtain ⟨s', n', live', h⟩ := start_repetition s t b n live
    rw [h]
    rfl

theorem capacity_idle (m : Matcher α τ) : m.idle.capacity = m.capacity :=
  (capacity_withoutProgress m.start).trans (capacity_start m)

theorem capacities_map_idle (ms : List (Matcher α τ)) :
    capacities (ms.map idle) = capacities ms := by
  induction ms with
  | nil => rfl
  | cons m ms ih => rw [List.map_cons, capacities, capacities, capacity_idle, ih]

theorem capacity_concat (es : List (Matcher α τ)) :
    (concat es).capacity = 4 * arrangements (capacities es) := by
  rw [concat, capacity_start, capacity, capacities_map_idle]

theorem capacity_either (bs : List (Matcher α τ)) :
    (either bs).capacity = 4 * arrangements (capacities bs) := by
  rw [either, capacity_start, capacity, capacities_map_idle]

theorem capacity_replicate (t : Matcher α τ) (b : Bounds) :
    (replicate t b).capacity = 4 * arrangements (t.capacity * b.countRange) := by
  rw [replicate, capacity_start, capacity, capacity_idle]

theorem capacity_le_capacities {m : Matcher α τ} {ms : List (Matcher α τ)} (h : m ∈ ms) :
    m.capacity ≤ capacities ms := by
  induction ms with
  | nil => cases h
  | cons d ms ih =>
    rw [capacities]
    rcases List.mem_cons.mp h with rfl | h
    · exact Nat.le_add_right ..
    · exact (ih h).trans (Nat.le_add_left ..)

/-- No list of progressions, at any depth, is longer than `n`. -/
def Bounded (n : Nat) (m : Matcher α τ) : Prop :=
  ∀ a, m.Contains a → a.progressions.length ≤ n

theorem Bounded.mono {n n' : Nat} {m : Matcher α τ} (h : m.Bounded n) (hn : n ≤ n') :
    m.Bounded n' := fun a ha => (h a ha).trans hn

theorem bounded_iff {n : Nat} {m : Matcher α τ} :
    m.Bounded n ↔ m.progressions.length ≤ n ∧ (∀ e ∈ m.parts, e.Bounded n) ∧
      ∀ p ∈ m.progressions, p.Bounded n := by
  constructor
  · intro h
    exact ⟨h m (.self m), fun e he a ha => h a (.part he ha), fun p hp a ha =>
      h a (.progression hp ha)⟩
  · intro h a ha
    obtain ⟨hroot, hparts, hprogress⟩ := h
    cases ha with
    | self => exact hroot
    | part he ha => exact hparts _ he a ha
    | progression hp ha => exact hprogress _ hp a ha

theorem Bounded.withoutProgress {n : Nat} {m : Matcher α τ} (h : m.Bounded n) :
    m.withoutProgress.Bounded n := by
  rw [bounded_iff, parts_withoutProgress, progressions_withoutProgress]
  exact ⟨Nat.zero_le _, (bounded_iff.mp h).2.1, List.forall_mem_nil _⟩

variable [DecidableEq α] [DecidableEq τ] [ItemTest τ α]

/-- The matchers that one becomes, from the start and by reading. -/
def runs (m : Matcher α τ) : Set (Matcher α τ) := Set.range m.start.feed

/-- What becomes of a matcher stays within its capacity: how many matchers it becomes, and how much
those list. -/
structure Confined (m : Matcher α τ) : Prop where
  few : m.runs.encard ≤ m.capacity
  short : ∀ r ∈ m.runs, r.Bounded m.capacity

theorem exists_leaf_of_feed (s : MatchState) (l : Leaf α τ) (input : List α) :
    ∃ s' l', (leaf s l).feed input = leaf s' l' := by
  induction input generalizing s l with
  | nil => exact ⟨s, l, rfl⟩
  | cons x input ih =>
    rw [feed_cons, read]
    split_ifs
    · rw [advance]
      exact ih ..
    · exact ih ..

theorem confined_leaf (s : MatchState) (l : Leaf α τ) : (leaf s l).Confined := by
  have hrun : ∀ r ∈ (leaf s l).runs, ∃ s' l', l' ∈ l.places ∧ r = leaf s' l' := by
    intro r hr
    obtain ⟨input, rfl⟩ := hr
    obtain ⟨s', l', hl'⟩ := exists_leaf_of_feed l.start.1 l.start.2 input
    have hstart : (leaf s' l').start = (leaf s l).start := by
      rw [← hl']
      exact (start_feed _ input).trans (start_start (leaf s l))
    exact ⟨s', l', Leaf.mem_places (Matcher.leaf.inj hstart).2, hl'⟩
  constructor
  · rw [capacity, ← Leaf.length_places]
    refine encard_le_of_states (encard_le_length fun _ hl => hl) leaf fun r hr => ?_
    obtain ⟨s', l', hl', rfl⟩ := hrun r hr
    exact ⟨s', l', hl', rfl⟩
  · intro r hr
    obtain ⟨s', l', -, rfl⟩ := hrun r hr
    exact bounded_iff.mpr ⟨Nat.zero_le _, List.forall_mem_nil _, List.forall_mem_nil _⟩

/-- A combinator that lists different progressions out of `pool`. -/
inductive Lists (combinator : MatchState → List (Matcher α τ × Nat) → Matcher α τ)
    (pool : Set (Matcher α τ × Nat)) : Matcher α τ → Prop where
  | mk (s : MatchState) {live : List (Matcher α τ × Nat)} (distinct : live.Nodup)
    (listed : ∀ p ∈ live, p ∈ pool) : Lists combinator pool (combinator s live)

/-- Where progressions come out of `k`, the combinator becomes no more than that many of them can be
arranged to; and where they and the parts stay within bounds, so does the combinator. -/
theorem confined_of_lists {m : Matcher α τ} {ms : List (Matcher α τ)}
    (combinator : MatchState → List (Matcher α τ × Nat) → Matcher α τ)
    {pool : Set (Matcher α τ × Nat)} {k : Nat} (hcapacity : m.capacity = 4 * arrangements k)
    (hparts : ∀ s live, (combinator s live).parts = ms.map idle)
    (hprogress : ∀ s live, (combinator s live).progressions = live.map Prod.fst)
    (hpool : pool.encard ≤ k) (hms : ∀ e ∈ ms, e.Confined ∧ e.capacity ≤ k)
    (hruns : ∀ p ∈ pool, ∃ e ∈ ms, p.1 ∈ e.runs) (h : ∀ r ∈ m.runs, Lists combinator pool r) :
    m.Confined := by
  have hk : k ≤ m.capacity := by
    rw [hcapacity]
    exact (le_arrangements k).trans (Nat.le_mul_of_pos_left _ (by decide))
  have hshort : ∀ e ∈ ms, ∀ r ∈ e.runs, r.Bounded m.capacity := fun e he r hr =>
    ((hms e he).1.short r hr).mono ((hms e he).2.trans hk)
  constructor
  · rw [hcapacity]
    refine encard_le_of_states (encard_nodup_le hpool) combinator fun r hr => ?_
    obtain ⟨s, hdistinct, hlisted⟩ := h r hr
    exact ⟨s, _, ⟨hdistinct, hlisted⟩, rfl⟩
  · intro r hr
    cases h r hr with
    | @mk s live hdistinct hlisted =>
      refine bounded_iff.mpr ⟨?_, fun e he => ?_, fun q hq => ?_⟩
      · rw [hprogress, List.length_map]
        have hlength := (length_le_encard hdistinct hlisted).trans hpool
        exact (Nat.cast_le.mp hlength).trans hk
      · rw [hparts] at he
        obtain ⟨d, hd, rfl⟩ := List.mem_map.mp he
        exact (hshort d hd d.start ⟨[], rfl⟩).withoutProgress
      · rw [hprogress] at hq
        obtain ⟨p, hp, rfl⟩ := List.mem_map.mp hq
        obtain ⟨e, he, hrun⟩ := hruns p (hlisted p hp)
        exact hshort e he p.1 hrun

theorem Progresses.mem_runs {e p : Matcher α τ} {input : List α} (h : Progresses e input p) :
    p ∈ e.runs := by
  obtain ⟨since, -, hp⟩ := h.fed
  exact ⟨since, hp⟩

/-- What the parts become, each with the number of the part. -/
def numberedRuns (ms : List (Matcher α τ)) : Set (Matcher α τ × Nat) :=
  {p | ∃ i e, p.2 = i + 1 ∧ ms[i]? = some e ∧ p.1 ∈ e.runs}

theorem exists_of_mem_numberedRuns {ms : List (Matcher α τ)} :
    ∀ p ∈ numberedRuns ms, ∃ e ∈ ms, p.1 ∈ e.runs := by
  intro p hp
  obtain ⟨i, e, -, he, hr⟩ := hp
  exact ⟨e, List.mem_of_getElem? he, hr⟩

theorem encard_numberedRuns_le {ms : List (Matcher α τ)} (h : ∀ e ∈ ms, e.Confined) :
    (numberedRuns ms).encard ≤ capacities ms := by
  induction ms with
  | nil =>
    have hnone : (numberedRuns ([] : List (Matcher α τ))) = ∅ := by
      ext p
      simp [numberedRuns]
    rw [hnone, Set.encard_empty]
    exact zero_le
  | cons m ms ih =>
    obtain ⟨hm, hms⟩ := List.forall_mem_cons.mp h
    have hunion : numberedRuns (m :: ms) ⊆
        (fun r => (r, 1)) '' m.runs ∪ (fun p => (p.1, p.2 + 1)) '' numberedRuns ms := by
      intro p hp
      obtain ⟨r, n⟩ := p
      obtain ⟨i, e, rfl, he, hr⟩ := hp
      cases i with
      | zero =>
        obtain rfl : m = e := Option.some.inj he
        exact .inl ⟨r, hr, rfl⟩
      | succ i => exact .inr ⟨(r, i + 1), ⟨i, e, rfl, he, hr⟩, rfl⟩
    calc (numberedRuns (m :: ms)).encard
        ≤ ((fun r => (r, 1)) '' m.runs).encard +
            ((fun p => (p.1, p.2 + 1)) '' numberedRuns ms).encard :=
          (Set.encard_le_encard hunion).trans (Set.encard_union_le ..)
      _ ≤ m.capacity + capacities ms :=
          add_le_add ((Set.encard_image_le ..).trans hm.few)
            ((Set.encard_image_le ..).trans (ih hms))
      _ = capacities (m :: ms) := by rw [capacities, Nat.cast_add]

theorem confined_concat {es : List (Matcher α τ)} (h : ∀ e ∈ es, e.Confined) :
    (concat es).Confined := by
  refine confined_of_lists (fun s live => sequence s (es.map idle) live) (capacity_concat es)
    (fun _ _ => rfl) (fun _ _ => rfl) (encard_numberedRuns_le h)
    (fun e he => ⟨h e he, capacity_le_capacities he⟩) exists_of_mem_numberedRuns fun r hr => ?_
  obtain ⟨input, rfl⟩ := hr
  have hafter := sequenceAfter_drive es input
  rw [drive_concat_eq_feed] at hafter
  generalize (concat es).start.feed input = r at hafter
  obtain ⟨-, hdistinct, hnumbered⟩ := hafter
  refine .mk _ hdistinct fun p hp => ?_
  obtain ⟨i, e, hi, he, hprogress⟩ := hnumbered p hp
  exact ⟨i, e, hi, he, hprogress.mem_runs⟩

/-- The progressions of a choice, each with the number of its branch. -/
def numberedLive (branches : List (Matcher α τ)) (input : List α) : List (Matcher α τ × Nat) :=
  ((branches.zipIdx 1).map fun q => (q.1.start.feed input, q.2)).filter fun p => p.1.state.isLive

theorem map_fst_numberedLive (branches : List (Matcher α τ)) (input : List α) :
    (numberedLive branches input).map Prod.fst = stillLive branches input := by
  have hfst : branches.map (fun b => b.start.feed input) =
      ((branches.zipIdx 1).map fun q => (q.1.start.feed input, q.2)).map Prod.fst := by
    rw [List.map_map]
    conv_lhs => rw [← List.zipIdx_map_fst 1 branches, List.map_map]
    rfl
  rw [stillLive, hfst, List.filter_map]
  rfl

theorem nodup_numberedLive (branches : List (Matcher α τ)) (input : List α) :
    (numberedLive branches input).Nodup := by
  refine List.Nodup.filter _ (List.Nodup.of_map Prod.snd ?_)
  rw [List.map_map]
  exact (List.zipIdx_map_snd 1 branches) ▸ List.nodup_range'

theorem numberedLive_subset (branches : List (Matcher α τ)) (input : List α) :
    ∀ p ∈ numberedLive branches input, p ∈ numberedRuns branches := by
  intro p hp
  obtain ⟨q, hq, rfl⟩ := List.mem_map.mp (List.mem_of_mem_filter hp)
  obtain ⟨hle, hb⟩ := List.mk_mem_zipIdx_iff_le_and_getElem?_sub.mp hq
  exact ⟨q.2 - 1, q.1, (Nat.sub_add_cancel hle).symm, hb, ⟨input, rfl⟩⟩

theorem confined_either {bs : List (Matcher α τ)} (h : ∀ b ∈ bs, b.Confined) :
    (either bs).Confined := by
  refine confined_of_lists (fun s live => choice s (bs.map idle) (live.map Prod.fst))
    (capacity_either bs) (fun _ _ => rfl) (fun _ _ => rfl) (encard_numberedRuns_le h)
    (fun b hb => ⟨h b hb, capacity_le_capacities hb⟩) exists_of_mem_numberedRuns fun r hr => ?_
  obtain ⟨input, rfl⟩ := hr
  have hafter := choiceAfter_drive bs input
  rw [drive_either_eq_feed] at hafter
  generalize (either bs).start.feed input = r at hafter
  obtain ⟨-⟩ := hafter
  rw [← map_fst_numberedLive]
  exact .mk _ (nodup_numberedLive bs input) (numberedLive_subset bs input)

theorem confined_replicate {t : Matcher α τ} (h : t.Confined) (b : Bounds) :
    (replicate t b).Confined := by
  have hpool : (t.runs ×ˢ {c : Nat | 1 ≤ c ∧ c ≤ b.countRange}).encard ≤
      (t.capacity * b.countRange : Nat) := by
    have hcounts : {c : Nat | 1 ≤ c ∧ c ≤ b.countRange}.encard ≤ b.countRange := by
      have hmem : ∀ c ∈ {c : Nat | 1 ≤ c ∧ c ≤ b.countRange}, c ∈ List.range' 1 b.countRange := by
        intro c hc
        obtain ⟨h1, hle⟩ := hc
        rw [List.mem_range'_1]
        omega
      simpa using encard_le_length hmem
    rw [Set.encard_prod, Nat.cast_mul]
    exact mul_le_mul' h.few hcounts
  have hrange : t.capacity ≤ t.capacity * b.countRange :=
    Nat.le_mul_of_pos_right _ (Nat.le_max_right ..)
  refine confined_of_lists (fun s live => repetition s t.idle b (lowerInEffect t b) live)
    (capacity_replicate t b) (fun _ _ => (List.map_singleton ..).symm) (fun _ _ => rfl) hpool
    (List.forall_mem_singleton.mpr ⟨h, hrange⟩)
    (fun p hp => ⟨t, List.mem_singleton_self t, hp.1⟩) fun r hr => ?_
  obtain ⟨input, rfl⟩ := hr
  have hafter := repetitionAfter_drive t b input
  rw [drive_replicate_eq_feed] at hafter
  generalize (replicate t b).start.feed input = r at hafter
  obtain ⟨-, hdistinct, hnumbered⟩ := hafter
  refine .mk _ hdistinct fun p hp => ?_
  obtain ⟨hprogress, hone, hwithin, hsettled⟩ := hnumbered p hp
  refine ⟨hprogress.mem_runs, hone, ?_⟩
  have hlower := lowerInEffect_le t b
  unfold Bounds.countRange
  split_ifs with hb
  · have hle := hsettled hb
    omega
  · omega

theorem confined_of_built {d : Demand τ} {m : Matcher α τ} (h : m.Built d) : m.Confined := by
  induction h with
  | one | satisfying | any | literal => exact confined_leaf ..
  | concat _ _ ih => exact confined_concat ih
  | either _ _ ih => exact confined_either ih
  | replicate _ _ ih => exact confined_replicate ih _

/-- However long the input is, no list of progressions at any depth becomes longer than the capacity
of the tree. -/
theorem length_progressions_le {m a : Matcher α τ} (h : m.Reachable) (input : List α)
    (ha : (m.start.feed input).Contains a) : a.progressions.length ≤ m.capacity := by
  have hrun : m.start.feed input ∈ m.start.runs := ⟨input, by rw [start_start]⟩
  rw [← capacity_start m]
  exact (confined_of_built h.built_start).short _ hrun a ha

/-- From the second item on there are two ways to go on here, and however much is read no more. -/
theorem length_progressions_of_pairs :
    let m : Matcher Int Interval := replicate (concat [any, replicate any .zeroOrOne]) (.atLeast 2)
    let after := m.start.feed [1, 2, 3, 4, 5, 6]
    m.Reachable ∧ after.Contains after ∧ after.progressions.length = 2 ∧
      after.progressions.length ≤ m.capacity := by
  intro m after
  have hm : m.Reachable := by
    refine .replicate (.concat fun e he => ?_) _
    simp only [List.mem_cons, List.not_mem_nil, or_false] at he
    rcases he with rfl | rfl
    · exact .any
    · exact .replicate .any _
  exact ⟨hm, .self after, by decide, length_progressions_le hm _ (.self after)⟩

end Matcher
end IncrementalRegex
