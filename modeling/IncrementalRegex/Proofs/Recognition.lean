import IncrementalRegex.Matcher.Interval
import IncrementalRegex.Proofs.Choice
import IncrementalRegex.Proofs.Repetition
import IncrementalRegex.Proofs.Sequence
import IncrementalRegex.Proofs.Tree

namespace IncrementalRegex

open MatchState

theorem MatchState.exists_aspect {s : MatchState} (h : s ≠ .mismatch) : ∃ a : Aspect, a.of s := by
  cases s with
  | mismatch => contradiction
  | matched | finalMatch => exact ⟨.complete, rfl⟩
  | undecided => exact ⟨.live, rfl⟩

namespace Matcher

variable {α τ : Type}

theorem state_concat_ne_mismatch {es : List (Matcher α τ)}
    (h : ∀ e ∈ es, e.start.state ≠ .mismatch) : (concat es).start.state ≠ .mismatch := by
  rw [start_concat]
  change (if (es.map idle).isEmpty then MatchState.matched else (reach (es.map idle) 0).1) ≠ _
  split_ifs
  · simp
  · exact reach_ne_mismatch (parts_map_idle h) 0

theorem state_replicate_ne_mismatch {t : Matcher α τ} {b : Bounds}
    (h : t.start.state ≠ .mismatch) : (replicate t b).start.state ≠ .mismatch := by
  rw [start_replicate, replicate, start]
  rw [← state_idle] at h
  by_cases hu : b.upper = 0
  · simp [hu]
  · rw [if_neg hu]
    cases hs : t.idle.state with
    | mismatch => contradiction
    | finalMatch | matched => simp
    | undecided => by_cases hl : b.lower = 0 <;> simp [hl]

variable [DecidableEq α] [DecidableEq τ] [ItemTest τ α] {a : Aspect}

theorem words_concat {es : List (Matcher α τ)} (h : ∀ e ∈ es, e.start.state ≠ .mismatch)
    (hne : a = .complete ∨ es ≠ []) : (concat es).start.words a = following a (es.map idle) := by
  rw [start_concat, concat]
  exact words_start_sequence (parts_map_idle h) _ _ (hne.imp_right (by simp))

theorem mem_words_either {bs : List (Matcher α τ)} {w : List α} :
    w ∈ (either bs).start.words a ↔ ∃ b ∈ bs, w ∈ b.start.words a := by
  rw [start_either, either, mem_words_start_choice]
  · simp [start_idle]
  · intro b hb
    obtain ⟨m, -, rfl⟩ := List.mem_map.mp hb
    rw [state_idle, start_idle]

theorem words_replicate {t : Matcher α τ} {b : Bounds} (h : t.start.state ≠ .mismatch)
    (hb : b.lower < unbounded) :
    (replicate t b).start.words a = further t.idle b b.lower a 0 := by
  have hp := part_idle h
  rw [start_replicate, replicate]
  exact words_start_repetition hp.state_eq hp.possible hb ..

theorem state_either_ne_mismatch {bs : List (Matcher α τ)} (hne : bs ≠ [])
    (h : ∀ b ∈ bs, b.start.state ≠ .mismatch) : (either bs).start.state ≠ .mismatch := by
  obtain ⟨b, bs', rfl⟩ := List.exists_cons_of_ne_nil hne
  obtain ⟨a, ha⟩ := exists_aspect (h b List.mem_cons_self)
  have hm : [] ∈ (either (b :: bs')).start.words a := mem_words_either.mpr ⟨b, by simp, ha⟩
  exact ne_mismatch (nil_mem_words.mp hm)

theorem following_map_idle {es : List (Matcher α τ)}
    (h : ∀ e ∈ es, e.start.words .complete = e.language) :
    following .complete (es.map idle) = (es.map language).prod := by
  rw [following_complete, List.map_map]
  apply congrArg List.prod
  apply List.map_congr_left
  intro e he
  rw [Function.comp_apply, start_idle, h e he]

/-- What a tree accepts from its start is what it denotes, and there is something to wait for. -/
theorem words_of_built {m : Matcher α τ} (h : m.Built .proper) :
    m.start.state ≠ .mismatch ∧ m.start.words .complete = m.language := by
  induction h with
  | one v => exact ⟨by simp [one, start, Leaf.start], Set.ext fun s => (mem_words_one v s).1⟩
  | satisfying tag h =>
    refine ⟨by simp [satisfying, start, Leaf.start], ?_⟩
    exact Set.ext fun s => (mem_words_satisfying tag _ s).1
  | any h => exact ⟨by simp [any, start, Leaf.start], Set.ext fun s => (mem_words_any s).1⟩
  | literal text =>
    refine ⟨?_, Set.ext fun s => (mem_words_start_literal text s).1⟩
    simp only [literal, start, Leaf.start]
    split_ifs <;> simp
  | concat _ _ ih =>
    refine ⟨state_concat_ne_mismatch fun e he => (ih e he).1, ?_⟩
    rw [words_concat (fun e he => (ih e he).1) (Or.inl rfl), language_concat,
      following_map_idle fun e he => (ih e he).2]
  | either h _ ih =>
    refine ⟨state_either_ne_mismatch (List.length_pos_iff.mp h) fun b hb => (ih b hb).1, ?_⟩
    ext w
    rw [mem_words_either, mem_language_either]
    exact exists_congr fun b => and_congr_right fun hb => by rw [(ih b hb).2]
  | replicate h _ ih =>
    refine ⟨state_replicate_ne_mismatch ih.1, ?_⟩
    ext w
    rw [words_replicate ih.1 h, mem_language_replicate]
    simp only [further, start_idle, ih.2, Nat.zero_add, Bounds.Allows, and_assoc]
    rfl

/-- Where a matcher waits for more, there is something that it waits for. -/
def Viable (m : Matcher α τ) : Prop :=
  ∀ s ∈ m.words .live, ∃ w, w ≠ [] ∧ s ++ w ∈ m.words .complete

theorem Viable.exists_mem {m : Matcher α τ} (h : m.Viable) (hm : m.state ≠ .mismatch) :
    ∃ w, w ∈ m.words .complete := by
  obtain ⟨a, ha⟩ := exists_aspect hm
  cases a with
  | complete => exact ⟨[], ha⟩
  | live =>
    obtain ⟨w, -, hw⟩ := h [] ha
    exact ⟨w, hw⟩

/-- A live state is a promise: with the converse, which holds of all matchers, the languages of
a viable matcher determine each other. -/
theorem mem_words_live_iff {m : Matcher α τ} (h : m.Viable) (s : List α) :
    s ∈ m.words .live ↔ ∃ w, w ≠ [] ∧ s ++ w ∈ m.words .complete := by
  constructor
  · exact h s
  · intro hm
    obtain ⟨w, hw, hs⟩ := hm
    exact live_of_mem_words hw (append_mem_words.mp hs)

theorem exists_mem_following {es : List (Matcher α τ)}
    (h : ∀ e ∈ es, ∃ w, w ∈ e.start.words .complete) : ∃ w, w ∈ following .complete es := by
  induction es with
  | nil => exact ⟨[], Language.nil_mem_one⟩
  | cons e es ih =>
    obtain ⟨u, hu⟩ := h e List.mem_cons_self
    obtain ⟨v, hv⟩ := ih fun d hd => h d (List.mem_cons_of_mem _ hd)
    exact ⟨u ++ v, mem_following_cons.mpr (Or.inr ⟨u, v, hu, hv, rfl⟩)⟩

theorem viable_following {es : List (Matcher α τ)} (h : ∀ e ∈ es, e.start.Viable)
    (hne : ∀ e ∈ es, ∃ w, w ∈ e.start.words .complete) {s : List α}
    (hs : s ∈ following .live es) : ∃ w, w ≠ [] ∧ s ++ w ∈ following .complete es := by
  induction es generalizing s with
  | nil => exact absurd hs (Language.notMem_zero s)
  | cons e es ih =>
    have hne' := fun d hd => hne d (List.mem_cons_of_mem e hd)
    obtain ⟨-, hs⟩ | ⟨u, v, hu, hv, rfl⟩ := mem_following_cons.mp hs
    · obtain ⟨w, hw, hc⟩ := h e List.mem_cons_self s hs
      obtain ⟨v, hv⟩ := exists_mem_following hne'
      refine ⟨w ++ v, by simp [hw], mem_following_cons.mpr (Or.inr ⟨s ++ w, v, hc, hv, ?_⟩)⟩
      exact List.append_assoc s w v
    · obtain ⟨w, hw, hc⟩ := ih (fun d hd => h d (List.mem_cons_of_mem _ hd)) hne' hv
      refine ⟨w, hw, mem_following_cons.mpr (Or.inr ⟨u, v ++ w, hu, hc, ?_⟩)⟩
      exact (List.append_assoc u v w).symm

theorem viable_further {t : Matcher α τ} {b : Bounds} (h : t.start.Viable)
    (hne : ∃ w, w ∈ t.start.words .complete) {s : List α} (hs : s ∈ further t b b.lower .live 0) :
    ∃ w, w ≠ [] ∧ s ++ w ∈ further t b b.lower .complete 0 := by
  have hlower := b.lower_le_upper
  obtain ⟨k, hk, hs⟩ := hs
  obtain ⟨u, hu, v, hv, rfl⟩ := Language.mem_mul.mp hs
  obtain ⟨w, hw, hc⟩ := h v hv
  obtain ⟨z, hz⟩ := exists_mem_pow hne (b.lower - (k + 1))
  refine ⟨w ++ z, by simp [hw], k + (1 + (b.lower - (k + 1))), by omega, ?_, ?_⟩
  · exact hk.imp_right (by omega)
  · rw [pow_add, pow_add, pow_one]
    refine Language.mem_mul.mpr ⟨u, hu, (v ++ w) ++ z, Language.mem_mul.mpr ⟨_, hc, z, hz, rfl⟩, ?_⟩
    simp only [List.append_assoc]

theorem viable_of_built {m : Matcher α τ} (h : m.Built (.viable α)) : m.start.Viable := by
  induction h with
  | one v =>
    intro s hs
    refine ⟨[v], by simp, (mem_words_one v _).1.mpr ?_⟩
    rw [(mem_words_one v s).2.mp hs, List.nil_append]
  | satisfying tag h =>
    intro s hs
    obtain ⟨x, hx⟩ := h
    refine ⟨[x], by simp, (mem_words_satisfying tag _ _).1.mpr ⟨x, hx, ?_⟩⟩
    rw [(mem_words_satisfying tag _ s).2.mp hs, List.nil_append]
  | any h =>
    intro s hs
    obtain ⟨x⟩ := h
    refine ⟨[x], by simp, (mem_words_any _).1.mpr ⟨x, ?_⟩⟩
    rw [(mem_words_any s).2.mp hs, List.nil_append]
  | literal text =>
    intro s hs
    obtain ⟨w, hw, he⟩ := (mem_words_start_literal text s).2.mp hs
    exact ⟨w, hw, (mem_words_start_literal text _).1.mpr he⟩
  | @concat es h parts ih =>
    have hstart : ∀ e ∈ es, e.start.state ≠ .mismatch := fun e he =>
      (words_of_built (parts e he).proper).1
    have hne := List.length_pos_iff.mp h
    intro s hs
    rw [words_concat hstart (Or.inr hne)] at hs
    rw [words_concat hstart (Or.inr hne)]
    refine viable_following ?_ ?_ hs <;> intro e he <;> obtain ⟨m, hm, rfl⟩ := List.mem_map.mp he
    · rw [start_idle]
      exact ih m hm
    · rw [start_idle]
      exact (ih m hm).exists_mem (hstart m hm)
  | either h _ ih =>
    intro s hs
    obtain ⟨b, hb, hs⟩ := mem_words_either.mp hs
    obtain ⟨w, hw, hc⟩ := ih b hb s hs
    exact ⟨w, hw, mem_words_either.mpr ⟨b, hb, hc⟩⟩
  | @replicate t b h part ih =>
    have hstart := (words_of_built part.proper).1
    rw [← start_idle t] at ih
    intro s hs
    rw [words_replicate hstart h] at hs
    rw [words_replicate hstart h]
    refine viable_further ih (ih.exists_mem ?_) hs
    rw [start_idle]
    exact hstart

theorem accepts_iff_of_built {m : Matcher α τ} (h : m.Built .proper) (s : List α) :
    m.accepts s ↔ s ∈ m.language := by
  rw [accepts_iff_mem_words, (words_of_built h).2]

theorem isLive_iff_of_built {m : Matcher α τ} (h : m.Built (.viable α)) (s : List α) :
    (m.start.feed s).state.isLive ↔ ∃ w, w ≠ [] ∧ s ++ w ∈ m.language := by
  rw [← (words_of_built h.proper).2]
  exact mem_words_live_iff (viable_of_built h) s

/-- The state says which of an input and its extensions are in the language. -/
theorem state_feed_start_iff {m : Matcher α τ} (h : m.Built (.viable α)) (s : List α) :
    ((m.start.feed s).state = .finalMatch ↔
      s ∈ m.language ∧ ∀ w, w ≠ [] → s ++ w ∉ m.language) ∧
    ((m.start.feed s).state = .matched ↔
      s ∈ m.language ∧ ∃ w, w ≠ [] ∧ s ++ w ∈ m.language) ∧
    ((m.start.feed s).state = .undecided ↔
      s ∉ m.language ∧ ∃ w, w ≠ [] ∧ s ++ w ∈ m.language) ∧
    ((m.start.feed s).state = .mismatch ↔ ∀ w, s ++ w ∉ m.language) := by
  have hc : (m.start.feed s).state.isMatch ↔ s ∈ m.language := accepts_iff_of_built h.proper s
  have hl := isLive_iff_of_built h s
  have hfinal : (∀ w, w ≠ [] → s ++ w ∉ m.language) ↔
      ¬ ∃ w, w ≠ [] ∧ s ++ w ∈ m.language := by
    simp only [not_exists, not_and]
  have hnone : (∀ w, s ++ w ∉ m.language) ↔
      s ∉ m.language ∧ ∀ w, w ≠ [] → s ++ w ∉ m.language := by
    constructor
    · intro hno
      exact ⟨by simpa using hno [], fun w _ => hno w⟩
    · intro hm w
      obtain ⟨hs, hno⟩ := hm
      by_cases hw : w = []
      · simpa [hw] using hs
      · exact hno w hw
  rw [hnone, hfinal, ← hc, ← hl]
  cases (m.start.feed s).state <;> simp [isMatch, isLive]

theorem exists_longer_of_matched :
    let m : Matcher Int Interval := concat [satisfying 0 ⟨1, 3⟩, replicate any .zeroOrOne]
    [2] ∈ m.language ∧ ∃ w, w ≠ [] ∧ [2] ++ w ∈ m.language := by
  intro m
  have hm : m.Built (.viable Int) := by
    apply Built.concat Nat.zero_lt_two
    intro e he
    simp only [List.mem_cons, List.not_mem_nil, or_false] at he
    rcases he with rfl | rfl
    · exact .satisfying 0 ⟨2, by decide⟩
    · exact .replicate (by decide : 0 < unbounded) (.any ⟨2⟩)
  exact (state_feed_start_iff hm [2]).2.1.mp (by decide)

end Matcher
end IncrementalRegex
