import IncrementalRegex.Proofs.Run

namespace IncrementalRegex.Matcher

open MatchState

variable {α τ : Type} [DecidableEq α] [DecidableEq τ] [ItemTest τ α]

/-- The inputs for which a progression answers yes, if `rest i` is what may follow the number `i`:
it is itself still live, or it is completed by a part of the input that is not empty, and what is
left of the input belongs to what follows. -/
def carry (a : Aspect) (rest : Nat → Language α) (p : Matcher α τ × Nat) : Language α :=
  {s | (a = .live ∧ s ∈ p.1.words .live) ∨
    ∃ u v, u ≠ [] ∧ u ∈ p.1.words .complete ∧ v ∈ rest p.2 ∧ u ++ v = s}

/-- The same once the progression has read an item, which may have completed it. -/
def carryOn (a : Aspect) (rest : Nat → Language α) (p : Matcher α τ × Nat) : Language α :=
  {s | s ∈ carry a rest p ∨ (p.1.state.isMatch ∧ s ∈ rest p.2)}

variable {a : Aspect} {rest : Nat → Language α}

theorem mem_carry {p : Matcher α τ × Nat} {s : List α} :
    s ∈ carry a rest p ↔ (a = .live ∧ s ∈ p.1.words .live) ∨
      ∃ u v, u ≠ [] ∧ u ∈ p.1.words .complete ∧ v ∈ rest p.2 ∧ u ++ v = s := Iff.rfl

theorem mem_carryOn {p : Matcher α τ × Nat} {s : List α} :
    s ∈ carryOn a rest p ↔ s ∈ carry a rest p ∨ (p.1.state.isMatch ∧ s ∈ rest p.2) := Iff.rfl

theorem nil_mem_carry {p : Matcher α τ × Nat} :
    [] ∈ carry a rest p ↔ a = .live ∧ p.1.state.isLive := by
  rw [mem_carry, nil_mem_words]
  constructor
  · intro hm
    rcases hm with h | ⟨u, v, hu, -, -, he⟩
    · exact h
    · exact absurd (List.append_eq_nil_iff.mp he).1 hu
  · exact Or.inl

theorem cons_mem_carry {p : Matcher α τ × Nat} {x : α} {s : List α} :
    x :: s ∈ carry a rest p ↔ s ∈ carryOn a rest (p.1.read x, p.2) := by
  rw [mem_carryOn, mem_carry, mem_carry, cons_mem_words]
  constructor
  · intro hx
    rcases hx with h | ⟨u, v, hu, hc, hv, he⟩
    · exact Or.inl (Or.inl h)
    · obtain ⟨y, u, rfl⟩ := List.exists_cons_of_ne_nil hu
      obtain ⟨rfl, rfl⟩ := List.cons.inj he
      by_cases hn : u = []
      · subst hn
        exact Or.inr ⟨hc, hv⟩
      · exact Or.inl (Or.inr ⟨u, v, hn, hc, hv, rfl⟩)
  · intro hx
    rcases hx with (h | ⟨u, v, -, hc, hv, rfl⟩) | ⟨hm, hs⟩
    · exact Or.inl h
    · exact Or.inr ⟨x :: u, v, by simp, hc, hv, rfl⟩
    · exact Or.inr ⟨[x], s, by simp, hm, hs, rfl⟩

theorem live_of_mem_carry {p : Matcher α τ × Nat} {s : List α} (hs : s ≠ [])
    (h : s ∈ carry a rest p) : p.1.state.isLive := by
  obtain ⟨-, h⟩ | ⟨u, -, hu, hc, -⟩ := h
  · exact live_of_mem_words hs h
  · exact live_of_mem_words hu hc

theorem notMem_carry {p : Matcher α τ × Nat} {s : List α} (h : p.1.state.isLive = false)
    (hs : s ≠ []) : s ∉ carry a rest p := by
  intro hc
  rw [live_of_mem_carry hs hc] at h
  contradiction

theorem mem_readNumbered {x : α} {live : List (Matcher α τ × Nat)} {q : Matcher α τ × Nat} :
    q ∈ readNumbered x live ↔ ∃ p ∈ live, (p.1.read x, p.2) = q := by
  rw [readNumbered_eq_map, List.mem_map]

/-- A combinator that reads by letting each of its progressions read.  One that has read contributes
its `outcome` to the state, and its `offspring` go on. -/
structure Combines (a : Aspect) (rest : Nat → Language α)
    (combinator : MatchState → List (Matcher α τ × Nat) → Matcher α τ)
    (outcome : Matcher α τ × Nat → MatchState)
    (offspring : Matcher α τ × Nat → List (Matcher α τ × Nat))
    (Valid : Matcher α τ × Nat → Prop) : Prop where
  state : ∀ s live, (combinator s live).state = s
  step : ∀ x s live, ∃ live',
    advance x (combinator s live) = combinator (.merge ((readNumbered x live).map outcome)) live' ∧
      ∀ q, q ∈ live' ↔ ∃ p ∈ readNumbered x live, q ∈ offspring p
  valid_read : ∀ x p, Valid p → Valid (p.1.read x, p.2)
  valid : ∀ p, Valid p → ∀ q ∈ offspring p, Valid q
  now : ∀ p, Valid p → (a.of (outcome p) ↔ [] ∈ carryOn a rest p)
  later : ∀ p, Valid p → ∀ s, s ≠ [] →
    (s ∈ carryOn a rest p ↔ ∃ q ∈ offspring p, s ∈ carry a rest q)
  terminal : ∀ p, Valid p → (outcome p).isLive = false → offspring p = []

namespace Combines

variable {combinator : MatchState → List (Matcher α τ × Nat) → Matcher α τ}
  {outcome : Matcher α τ × Nat → MatchState}
  {offspring : Matcher α τ × Nat → List (Matcher α τ × Nat)} {Valid : Matcher α τ × Nat → Prop}

theorem valid_readNumbered (h : Combines a rest combinator outcome offspring Valid) (x : α)
    {live : List (Matcher α τ × Nat)} (hv : ∀ p ∈ live, Valid p) :
    ∀ p ∈ readNumbered x live, Valid p := by
  intro q hq
  obtain ⟨p, hp, rfl⟩ := mem_readNumbered.mp hq
  exact h.valid_read x p (hv p hp)

/-- With a terminal state nothing is left to wait for. -/
theorem eq_nil_of_terminal (h : Combines a rest combinator outcome offspring Valid)
    {moved live' : List (Matcher α τ × Nat)} (hv : ∀ p ∈ moved, Valid p)
    (hlive : ∀ q, q ∈ live' ↔ ∃ p ∈ moved, q ∈ offspring p)
    (ht : (merge (moved.map outcome)).isLive = false) : live' = [] := by
  apply List.eq_nil_iff_forall_not_mem.mpr
  intro q hq
  obtain ⟨p, hp, hq⟩ := (hlive q).mp hq
  have ho : (outcome p).isLive = false := isLive_of_merge (List.mem_map_of_mem hp) ht
  rw [h.terminal p (hv p hp) ho] at hq
  contradiction

/-- By induction on the input: what is left of the input once an item has been read is again for
the progressions that are then live. -/
theorem mem_words (h : Combines a rest combinator outcome offspring Valid) {s : MatchState}
    {live : List (Matcher α τ × Nat)} (hv : ∀ p ∈ live, Valid p) (hs : s.isLive) {w : List α}
    (hw : w ≠ []) : w ∈ (combinator s live).words a ↔ ∃ p ∈ live, w ∈ carry a rest p := by
  induction w generalizing s live with
  | nil => contradiction
  | cons x w ih =>
    obtain ⟨live', hstep, hlive⟩ := h.step x s live
    have hvr := h.valid_readNumbered x hv
    have hread : (∃ p ∈ live, x :: w ∈ carry a rest p) ↔
        ∃ p ∈ readNumbered x live, w ∈ carryOn a rest p := by
      simp only [cons_mem_carry, mem_readNumbered]
      grind
    rw [cons_mem_words, read_of_live (by rw [h.state]; exact hs), hstep, hread]
    by_cases hn : w = []
    · subst hn
      rw [nil_mem_words, h.state, aspect_merge]
      simp only [List.mem_map, exists_exists_and_eq_and]
      exact exists_congr fun p => and_congr_right fun hp => h.now p (hvr p hp)
    · have hlater : (∃ p ∈ readNumbered x live, w ∈ carryOn a rest p) ↔
          ∃ q ∈ live', w ∈ carry a rest q := by
        constructor
        · intro hm
          obtain ⟨p, hp, hc⟩ := hm
          obtain ⟨q, hq, hc⟩ := (h.later p (hvr p hp) w hn).mp hc
          exact ⟨q, (hlive q).mpr ⟨p, hp, hq⟩, hc⟩
        · intro hm
          obtain ⟨q, hq, hc⟩ := hm
          obtain ⟨p, hp, hq⟩ := (hlive q).mp hq
          exact ⟨p, hp, (h.later p (hvr p hp) w hn).mpr ⟨q, hq, hc⟩⟩
      rw [hlater]
      cases ht : (merge ((readNumbered x live).map outcome)).isLive with
      | true =>
        have hv' : ∀ q ∈ live', Valid q := by
          intro q hq
          obtain ⟨p, hp, hq⟩ := (hlive q).mp hq
          exact h.valid p (hvr p hp) q hq
        exact ih hv' ht hn
      | false =>
        rw [h.eq_nil_of_terminal hvr hlive ht]
        have hno := notMem_words (a := a) ((congrArg isLive (h.state _ [])).trans ht) hn
        simp [hno]

end Combines
end IncrementalRegex.Matcher
