import IncrementalRegex.Proofs.Alike
import IncrementalRegex.Proofs.Storage

namespace IncrementalRegex.Matcher

open MatchState

variable {α τ : Type}

/-- Every choice that is held, at whatever depth, has a branch. -/
def Branched (m : Matcher α τ) : Prop := ∀ a, m.Contains a → ∀ s live, a ≠ choice s [] live

theorem branched_iff {m : Matcher α τ} : m.Branched ↔
    (∀ s live, m ≠ choice s [] live) ∧ (∀ e ∈ m.parts, e.Branched) ∧
      ∀ p ∈ m.progressions, p.Branched := by
  constructor
  · intro h
    exact ⟨h m (.self m), fun e he a ha => h a (.part he ha),
      fun p hp a ha => h a (.progression hp ha)⟩
  · intro h a ha
    obtain ⟨hroot, hparts, hprogress⟩ := h
    cases ha with
    | self => exact hroot
    | part he ha => exact hparts _ he a ha
    | progression hp ha => exact hprogress _ hp a ha

theorem Settled.map_idle {m : Matcher α τ} (h : m.Settled) :
    m.parts.map Matcher.idle = m.parts := by
  have hparts : ∀ e ∈ m.parts, e.idle = id e := fun e he => ((settled_iff.mp h).1 e he).1
  rw [List.map_congr_left hparts, List.map_id]

variable [DecidableEq α] [DecidableEq τ] [ItemTest τ α]

/-- A matcher is started as it is built of the parts that it stores. -/
theorem state_start_ne_mismatch {m : Matcher α τ} (hm : m.Settled) (hb : m.Branched) :
    m.start.state ≠ .mismatch := by
  induction m using held_induction with
  | held m ih _ =>
    have hstored := hm.map_idle
    have hparts : ∀ e ∈ m.parts, e.start.state ≠ .mismatch := fun e he =>
      ih e he ((settled_iff.mp hm).1 e he).2 ((branched_iff.mp hb).2.1 e he)
    cases m with
    | leaf s l =>
      cases l with
      | one | satisfying | any => simp [start, Leaf.start]
      | literal before rest =>
        simp only [start, Leaf.start, state]
        split_ifs <;> simp
    | sequence s es live =>
      have hstart : (sequence s es live).start = (concat es).start := by
        rw [start_concat, concat, show es.map idle = es from hstored]
        rfl
      rw [hstart]
      exact state_concat_ne_mismatch hparts
    | choice s bs live =>
      have hstart : (choice s bs live).start = (either bs).start := by
        rw [start_either, either, show bs.map idle = bs from hstored]
        rfl
      have hbranch : bs ≠ [] := by
        intro hnone
        exact (branched_iff.mp hb).1 s live (by rw [hnone])
      rw [hstart]
      exact state_either_ne_mismatch hbranch hparts
    | repetition s t b n live =>
      have hstart : (repetition s t b n live).start = (replicate t b).start := by
        rw [start_replicate, replicate, show t.idle = t from (List.cons.inj hstored).1]
        rfl
      rw [hstart]
      exact state_replicate_ne_mismatch (hparts t (List.mem_singleton_self t))

theorem following_append (a : Aspect) (es fs : List (Matcher α τ)) :
    following a (es ++ fs) =
      (if a = .live then following .live es else 0) + following .complete es * following a fs := by
  induction es with
  | nil => cases a <;> simp [following]
  | cons e es ih =>
    rw [List.cons_append, following, ih, following, following]
    cases a <;> simp [mul_add, mul_assoc, add_assoc]

/-- A group answers as its elements do, one after the other; so groups one after the other answer as
all of their elements do. -/
theorem following_concat {groups : List (List (Matcher α τ))}
    (hne : ∀ g ∈ groups, g ≠ []) (h : ∀ g ∈ groups, ∀ m ∈ g, m.start.state ≠ .mismatch)
    (a : Aspect) : following a (groups.map concat) = following a groups.flatten := by
  induction groups with
  | nil => rfl
  | cons g groups ih =>
    obtain ⟨hg, hgroups⟩ := List.forall_mem_cons.mp h
    obtain ⟨hgne, hgroupsne⟩ := List.forall_mem_cons.mp hne
    have hwords (b : Aspect) : (concat g).start.words b = following b g := by
      rw [words_concat hg (Or.inr hgne), following_idle]
    rw [List.map_cons, List.flatten_cons, following, following_append, hwords, hwords,
      ih hgroupsne hgroups]

theorem alike_concat_flatten {groups : List (List (Matcher α τ))} (hsome : groups ≠ [])
    (hne : ∀ g ∈ groups, g ≠ []) (h : ∀ g ∈ groups, ∀ m ∈ g, m.start.state ≠ .mismatch) :
    Alike (concat (groups.map concat)) (concat groups.flatten) := by
  have hconcat : ∀ m ∈ groups.map concat, m.start.state ≠ .mismatch := by
    intro m hm
    obtain ⟨g, hg, rfl⟩ := List.mem_map.mp hm
    exact state_concat_ne_mismatch (h g hg)
  have hflatten : ∀ m ∈ groups.flatten, m.start.state ≠ .mismatch := by
    intro m hm
    obtain ⟨g, hg, hm⟩ := List.mem_flatten.mp hm
    exact h g hg m hm
  have hflat : groups.flatten ≠ [] := by
    obtain ⟨g, rest, rfl⟩ := List.exists_cons_of_ne_nil hsome
    have hg : g ≠ [] := hne g List.mem_cons_self
    simp [hg]
  intro a
  rw [words_concat hconcat (Or.inr (by simpa using hsome)), words_concat hflatten (Or.inr hflat),
    following_idle, following_idle]
  exact following_concat hne h a

theorem mem_following_one (text s : List α) :
    (s ∈ following .complete (text.map (one : α → Matcher α τ)) ↔ s = text) ∧
    (s ∈ following .live (text.map (one : α → Matcher α τ)) ↔ ∃ w, w ≠ [] ∧ s ++ w = text) := by
  induction text generalizing s with
  | nil => simp [following, Language.notMem_zero]
  | cons x text ih =>
    have hcomplete (u : List α) := (mem_words_one (τ := τ) x u).1
    have hlive (u : List α) := (mem_words_one (τ := τ) x u).2
    simp only [List.map_cons, mem_following_cons, hcomplete, hlive, fun u => (ih u).1,
      fun u => (ih u).2]
    constructor
    · simp [eq_comm]
    · cases s with
      | nil => simp
      | cons y s =>
        simp only [List.cons_ne_nil, and_false, false_or, List.cons_append, List.cons.injEq]
        constructor
        · intro hread
          obtain ⟨u, v, rfl, ⟨w, hw, rfl⟩, rfl, rfl⟩ := hread
          exact ⟨w, hw, rfl, rfl⟩
        · intro hrest
          obtain ⟨w, hw, rfl, rfl⟩ := hrest
          exact ⟨[y], s, rfl, ⟨w, hw, rfl⟩, rfl⟩

/-- A text is read as its items are, one after the other. -/
theorem alike_literal {text : List α} (h : text ≠ []) :
    Alike (literal text : Matcher α τ) (concat (text.map one)) := by
  have hone : ∀ m ∈ text.map (one : α → Matcher α τ), m.start.state ≠ .mismatch := by
    intro m hm
    obtain ⟨x, -, rfl⟩ := List.mem_map.mp hm
    simp [one, start, Leaf.start]
  intro a
  ext s
  rw [words_concat hone (Or.inr (by simpa using h)), following_idle]
  obtain ⟨hcomplete, hlive⟩ := mem_words_start_literal (τ := τ) text s
  cases a
  · exact hcomplete.trans (mem_following_one text s).1.symm
  · exact hlive.trans (mem_following_one text s).2.symm

/-- Elements that are put in sequence by groups, whatever they have read before, report the same
states as the same elements put in one sequence; and so does a text beside the sequence of its
items. -/
theorem states_concat_concat :
    (∀ groups : List (List (Matcher α τ)), groups ≠ [] → (∀ g ∈ groups, g ≠ []) →
      (∀ g ∈ groups, ∀ m ∈ g, m.Reachable ∧ m.Branched) →
      (concat (groups.map concat)).state = (concat groups.flatten).state ∧
      ∀ input, (concat (groups.map concat)).states input = (concat groups.flatten).states input) ∧
    ∀ text : List α, text ≠ [] →
      (literal text : Matcher α τ).state = (concat (text.map one) : Matcher α τ).state ∧
      ∀ input, (literal text : Matcher α τ).states input =
        (concat (text.map one) : Matcher α τ).states input := by
  have hreports {m m' : Matcher α τ} (hm : m.start = m) (hm' : m'.start = m') (h : Alike m m') :
      m.state = m'.state ∧ ∀ input, m.states input = m'.states input := by
    have hstate := h.state_eq
    have hstates := h.states_eq
    rw [hm, hm'] at hstate
    rw [hm, hm'] at hstates
    exact ⟨hstate, hstates⟩
  constructor
  · intro groups hsome hne h
    have hpossible : ∀ g ∈ groups, ∀ m ∈ g, m.start.state ≠ .mismatch := by
      intro g hg m hm
      obtain ⟨hreachable, hbranched⟩ := h g hg m hm
      exact state_start_ne_mismatch hreachable.settled hbranched
    exact hreports (start_concat _) (start_concat _) (alike_concat_flatten hsome hne hpossible)
  · intro text htext
    exact hreports (start_start _) (start_concat _) (alike_literal htext)

/-- The choice has read an item, and one of its branches goes on. -/
theorem states_of_used_choice :
    let used : Matcher Int Interval := (either [one 1, literal [1, 2]]).read 1
    let twos : Matcher Int Interval := replicate (one 2) (.atLeast 0)
    used.progressions ≠ [] ∧
    (concat [concat [used, twos], concat [twos]]).state = (concat [used, twos, twos]).state ∧
    ∀ input, (concat [concat [used, twos], concat [twos]]).states input =
      (concat [used, twos, twos]).states input := by
  intro used twos
  have hleaf (s : MatchState) (l : Leaf Int Interval) : (leaf s l).Branched :=
    branched_iff.mpr ⟨by simp, List.forall_mem_nil _, List.forall_mem_nil _⟩
  have hused : used.Reachable ∧ used.Branched := by
    refine ⟨(Reachable.either ?_).read 1, branched_iff.mpr ⟨?_, ?_, ?_⟩⟩
    · simp [Reachable.one, Reachable.literal]
    · intro s live h
      exact absurd (congrArg parts h) (show used.parts ≠ [] by decide)
    · exact List.forall_mem_cons.mpr ⟨hleaf _ _, List.forall_mem_singleton.mpr (hleaf _ _)⟩
    · exact List.forall_mem_singleton.mpr (hleaf _ _)
  have htwos : twos.Reachable ∧ twos.Branched := by
    refine ⟨(Reachable.one 2).replicate _, branched_iff.mpr ⟨?_, ?_, ?_⟩⟩
    · intro s live h
      exact absurd (congrArg parts h) (show twos.parts ≠ [] by decide)
    · exact List.forall_mem_singleton.mpr (hleaf _ _)
    · exact List.forall_mem_singleton.mpr (hleaf _ _)
  refine ⟨by decide, states_concat_concat.1 [[used, twos], [twos]] (by simp) (by simp) ?_⟩
  simp [hused, htwos]

end IncrementalRegex.Matcher
