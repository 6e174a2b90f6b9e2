import IncrementalRegex.Proofs.Refinement

namespace IncrementalRegex

variable {α τ : Type}

/-- How many items of a text have been read. -/
def Leaf.cursor : Leaf α τ → Nat
  | literal before _ => before.length
  | one _ | satisfying _ _ | any => 0

namespace Matcher

def cursor : Matcher α τ → Nat
  | leaf _ l => l.cursor
  | sequence _ _ _ | choice _ _ _ | repetition _ _ _ _ _ => 0

/-- What is stored: the elements, the branches or the body. -/
def parts : Matcher α τ → List (Matcher α τ)
  | leaf _ _ => []
  | sequence _ es _ => es
  | choice _ bs _ => bs
  | repetition _ t _ _ _ => [t]

/-- The copies of the parts that progress. -/
def progressions : Matcher α τ → List (Matcher α τ)
  | leaf _ _ => []
  | sequence _ _ live | repetition _ _ _ _ live => live.map Prod.fst
  | choice _ _ live => live

/-- A matcher and all that it holds, at whatever depth. -/
inductive Contains : Matcher α τ → Matcher α τ → Prop where
  | self (m : Matcher α τ) : Contains m m
  | part {m e a : Matcher α τ} (stored : e ∈ m.parts) (inside : Contains e a) : Contains m a
  | progression {m p a : Matcher α τ} (live : p ∈ m.progressions) (inside : Contains p a) :
    Contains m a

theorem sizeOf_lt_of_mem_parts {m e : Matcher α τ} (h : e ∈ m.parts) : sizeOf e < sizeOf m := by
  cases m with
  | leaf => cases h
  | sequence s es live =>
    have hlt : sizeOf e < sizeOf es := List.sizeOf_lt_of_mem h
    simp only [sequence.sizeOf_spec]
    omega
  | choice s bs live =>
    have hlt : sizeOf e < sizeOf bs := List.sizeOf_lt_of_mem h
    simp only [choice.sizeOf_spec]
    omega
  | repetition s t b n live =>
    obtain rfl := List.mem_singleton.mp h
    simp only [repetition.sizeOf_spec]
    omega

theorem sizeOf_lt_of_mem_progressions {m p : Matcher α τ} (h : p ∈ m.progressions) :
    sizeOf p < sizeOf m := by
  have hfst (q : Matcher α τ × Nat) : sizeOf q.1 < sizeOf q := by
    cases q
    simp only [Prod.mk.sizeOf_spec]
    omega
  cases m with
  | leaf => cases h
  | sequence s es live | repetition s t b n live =>
    obtain ⟨q, hq, rfl⟩ := List.mem_map.mp h
    have hlt := (hfst q).trans (List.sizeOf_lt_of_mem hq)
    simp only [sequence.sizeOf_spec, repetition.sizeOf_spec]
    omega
  | choice s bs live =>
    have hlt : sizeOf p < sizeOf live := List.sizeOf_lt_of_mem h
    simp only [choice.sizeOf_spec]
    omega

/-- Induction over a tree: what passes from all that a matcher holds to the matcher is true of every
matcher. -/
theorem held_induction {motive : Matcher α τ → Prop}
    (held : ∀ m, (∀ e ∈ m.parts, motive e) → (∀ p ∈ m.progressions, motive p) → motive m)
    (m : Matcher α τ) : motive m :=
  held m (fun e _ => held_induction held e) (fun p _ => held_induction held p)
termination_by m
decreasing_by
  · exact sizeOf_lt_of_mem_parts ‹_›
  · exact sizeOf_lt_of_mem_progressions ‹_›

@[simp] theorem parts_withState (s : MatchState) (m : Matcher α τ) :
    (m.withState s).parts = m.parts := by
  cases m <;> rfl

@[simp] theorem progressions_withState (s : MatchState) (m : Matcher α τ) :
    (m.withState s).progressions = m.progressions := by
  cases m <;> rfl

@[simp] theorem parts_withoutProgress (m : Matcher α τ) : m.withoutProgress.parts = m.parts := by
  cases m <;> rfl

@[simp] theorem progressions_withoutProgress (m : Matcher α τ) :
    m.withoutProgress.progressions = [] := by
  cases m <;> rfl

theorem cursor_withoutProgress (m : Matcher α τ) : m.withoutProgress.cursor = m.cursor := by
  cases m <;> rfl

theorem parts_start (m : Matcher α τ) : m.start.parts = m.parts := by
  cases m with
  | leaf | sequence | choice => rfl
  | repetition s t b n live =>
    obtain ⟨s', n', live', h⟩ := start_repetition s t b n live
    rw [h]
    rfl

theorem cursor_start (m : Matcher α τ) : m.start.cursor = 0 := by
  cases m with
  | leaf s l => cases l <;> rfl
  | sequence | choice => rfl
  | repetition s t b n live =>
    obtain ⟨s', n', live', h⟩ := start_repetition s t b n live
    rw [h]
    rfl

theorem exists_of_mem_progressions_start {m p : Matcher α τ} (h : p ∈ m.start.progressions) :
    ∃ e ∈ m.parts, e.start = p := by
  cases m with
  | leaf => cases h
  | sequence s es live =>
    obtain ⟨q, hq, rfl⟩ := List.mem_map.mp h
    exact start_of_mem_reach hq
  | choice s bs live =>
    obtain ⟨b, hb, -, hp⟩ := mem_startLive.mp h
    exact ⟨b, hb, hp⟩
  | repetition s t b n live =>
    obtain ⟨s', n', live', hstart, hlive⟩ := start_repetition_live s t b n live
    rw [hstart] at h
    obtain ⟨q, hq, rfl⟩ := List.mem_map.mp h
    exact ⟨t, List.mem_singleton_self t, by rw [hlive q hq]⟩

section

variable [DecidableEq α] [DecidableEq τ] [ItemTest τ α]

theorem parts_advance (x : α) (m : Matcher α τ) : (advance x m).parts = m.parts := by
  cases m <;> simp only [advance, parts]

/-- What progresses has progressed before or is started anew. -/
theorem exists_of_mem_progressions_advance {x : α} {m q : Matcher α τ}
    (h : q ∈ (advance x m).progressions) :
    (∃ p ∈ m.progressions, q = p.read x ∨ q = p.start) ∨ ∃ e ∈ m.parts, q = e.start := by
  cases m with
  | leaf => cases h
  | sequence s es live =>
    obtain ⟨live', hstep, hlive⟩ := advance_sequence es x s live
    rw [hstep] at h
    obtain ⟨q, hq, rfl⟩ := List.mem_map.mp h
    obtain ⟨_, hmoved, hq⟩ := (hlive q).mp hq
    obtain ⟨p, hp, rfl⟩ := mem_readNumbered.mp hmoved
    rcases mem_sequenceOffspring hq with ⟨-, rfl⟩ | hq
    · exact .inl ⟨p.1, List.mem_map_of_mem hp, .inl rfl⟩
    · obtain ⟨e, he, hstart⟩ := start_of_mem_reach hq
      exact .inr ⟨e, List.mem_of_mem_drop he, hstart.symm⟩
  | choice s bs live =>
    rw [advance, readAll_eq_map] at h
    obtain ⟨p, hp, rfl⟩ := List.mem_map.mp (List.mem_of_mem_filter h)
    exact .inl ⟨p, hp, .inl rfl⟩
  | repetition s t b n live =>
    obtain ⟨live', hstep, hlive⟩ := advance_repetition t b n x s live
    rw [hstep] at h
    obtain ⟨q, hq, rfl⟩ := List.mem_map.mp h
    obtain ⟨_, hmoved, hq⟩ := (hlive q).mp hq
    obtain ⟨p, hp, rfl⟩ := mem_readNumbered.mp hmoved
    rcases mem_repetitionOffspring hq with ⟨-, rfl⟩ | ⟨-, hstart | hstart, -⟩
    · exact .inl ⟨p.1, List.mem_map_of_mem hp, .inl rfl⟩
    · exact .inl ⟨p.1, List.mem_map_of_mem hp, .inr (hstart.trans (start_read p.1 x))⟩
    · exact .inr ⟨t, List.mem_singleton_self t, hstart⟩

end

theorem idle_idle (m : Matcher α τ) : m.idle.idle = m.idle := by
  rw [idle, start_idle]
  rfl

/-- All that is stored, at whatever depth, is as it was stored. -/
def Settled (m : Matcher α τ) : Prop := ∀ a, m.Contains a → ∀ e ∈ a.parts, e.idle = e

theorem settled_iff {m : Matcher α τ} :
    m.Settled ↔ (∀ e ∈ m.parts, e.idle = e ∧ e.Settled) ∧ ∀ p ∈ m.progressions, p.Settled := by
  constructor
  · intro h
    refine ⟨fun e he => ⟨h m (.self m) e he, fun a ha => h a (.part he ha)⟩, fun p hp a ha => ?_⟩
    exact h a (.progression hp ha)
  · intro h a ha
    obtain ⟨hparts, hprogress⟩ := h
    cases ha with
    | self => exact fun e he => (hparts e he).1
    | part he ha => exact (hparts _ he).2 a ha
    | progression hp ha => exact hprogress _ hp a ha

theorem Settled.start {m : Matcher α τ} (h : m.Settled) : m.start.Settled := by
  induction m using held_induction with
  | held m ih _ =>
    have hparts := (settled_iff.mp h).1
    refine settled_iff.mpr ⟨by rwa [parts_start], fun p hp => ?_⟩
    obtain ⟨e, he, rfl⟩ := exists_of_mem_progressions_start hp
    exact ih e he (hparts e he).2

theorem Settled.withState {m : Matcher α τ} (h : m.Settled) (s : MatchState) :
    (m.withState s).Settled := by
  rw [settled_iff, parts_withState, progressions_withState]
  exact settled_iff.mp h

theorem Settled.idle {m : Matcher α τ} (h : m.Settled) : m.idle.Settled := by
  rw [settled_iff, Matcher.idle, parts_withoutProgress, progressions_withoutProgress]
  exact ⟨(settled_iff.mp h.start).1, List.forall_mem_nil _⟩

/-- Combinators store their parts, and start. -/
theorem settled_start_of_stored {m : Matcher α τ} (ms : List (Matcher α τ))
    (hm : m.parts = ms.map Matcher.idle) (hnone : m.progressions = [])
    (h : ∀ e ∈ ms, e.Settled) : m.start.Settled := by
  apply Settled.start
  rw [settled_iff, hm, hnone]
  refine ⟨fun e he => ?_, List.forall_mem_nil _⟩
  obtain ⟨d, hd, rfl⟩ := List.mem_map.mp he
  exact ⟨idle_idle d, (h d hd).idle⟩

section

variable [DecidableEq α] [DecidableEq τ] [ItemTest τ α]

theorem Settled.advance {m : Matcher α τ} (h : m.Settled) (x : α) : (advance x m).Settled := by
  induction m using held_induction with
  | held m _ ih =>
    obtain ⟨hparts, hprogress⟩ := settled_iff.mp h
    refine settled_iff.mpr ⟨by rwa [parts_advance], fun q hq => ?_⟩
    rcases exists_of_mem_progressions_advance hq with ⟨p, hp, rfl | rfl⟩ | ⟨e, he, rfl⟩
    · unfold read
      split_ifs
      · exact ih p hp (hprogress p hp)
      · exact (hprogress p hp).withState _
    · exact (hprogress p hp).start
    · exact (hparts e he).2.start

theorem Settled.read {m : Matcher α τ} (h : m.Settled) (x : α) : (m.read x).Settled := by
  unfold Matcher.read
  split_ifs
  · exact h.advance x
  · exact h.withState _

/-- Matchers that can be come by: put together of such matchers, whatever those have read before,
started again, or having read an item, with or without regard to the state. -/
inductive Reachable : Matcher α τ → Prop where
  | one (value : α) : Reachable (one value)
  | satisfying (tag : Nat) (test : τ) : Reachable (satisfying tag test)
  | any : Reachable any
  | literal (text : List α) : Reachable (literal text)
  | concat {elements : List (Matcher α τ)} (parts : ∀ e ∈ elements, Reachable e) :
    Reachable (concat elements)
  | either {branches : List (Matcher α τ)} (parts : ∀ b ∈ branches, Reachable b) :
    Reachable (either branches)
  | replicate {body : Matcher α τ} (part : Reachable body) (bounds : Bounds) :
    Reachable (replicate body bounds)
  | start {m : Matcher α τ} (h : Reachable m) : Reachable m.start
  | read {m : Matcher α τ} (h : Reachable m) (x : α) : Reachable (m.read x)
  | advance {m : Matcher α τ} (h : Reachable m) (x : α) : Reachable (advance x m)

theorem Reachable.settled {m : Matcher α τ} (h : m.Reachable) : m.Settled := by
  induction h with
  | one | satisfying | any | literal =>
    exact settled_start_of_stored [] rfl rfl (List.forall_mem_nil _)
  | concat _ ih | either _ ih => exact settled_start_of_stored _ rfl rfl ih
  | replicate _ _ ih =>
    exact settled_start_of_stored [_] rfl rfl (List.forall_mem_singleton.mpr ih)
  | start _ ih => exact ih.start
  | read _ x ih => exact ih.read x
  | advance _ x ih => exact ih.advance x

/-- What has been used starts as a tree that has just been built. -/
theorem Reachable.built_start {m : Matcher α τ} (h : m.Reachable) : m.start.Built {} := by
  have hnew {m : Matcher α τ} (h : m.Built {}) : m.start.Built {} := (start_of_built h).symm ▸ h
  have hidle (ms : List (Matcher α τ)) :
      (ms.map Matcher.start).map Matcher.idle = ms.map Matcher.idle := by
    rw [List.map_map]
    exact List.map_congr_left fun m _ => congrArg withoutProgress (start_start m)
  induction h with
  | one v => exact hnew (.one v)
  | satisfying tag t => exact hnew (.satisfying tag trivial)
  | any => exact hnew (.any trivial)
  | literal text => exact hnew (.literal text)
  | @concat es _ ih =>
    rw [Matcher.concat, ← hidle es]
    exact hnew (.concat trivial (List.forall_mem_map.mpr ih))
  | @either bs _ ih =>
    rw [Matcher.either, ← hidle bs]
    exact hnew (.either trivial (List.forall_mem_map.mpr ih))
  | @replicate t _ b ih =>
    have hbody : t.start.idle = t.idle := congrArg withoutProgress (start_start t)
    rw [Matcher.replicate, ← hbody]
    exact hnew (.replicate trivial ih)
  | @start m _ ih => rwa [start_start]
  | @read m _ x ih => rwa [start_read]
  | @advance m _ x ih => rwa [start_advance]

theorem Reachable.feed {m : Matcher α τ} (h : m.Reachable) (input : List α) :
    (m.feed input).Reachable := by
  induction input generalizing m with
  | nil => exact h
  | cons x input ih => exact ih (h.read x)

/-- Whatever has been read, what is stored in a matcher, at any depth and in progressions too, holds
no progressions itself, nothing of its texts has been read, and its state is the one it starts
with. -/
theorem stored_of_reachable {m a e : Matcher α τ} (h : m.Reachable) (ha : m.Contains a)
    (he : e ∈ a.parts) : e.progressions = [] ∧ e.cursor = 0 ∧ e.state = e.start.state := by
  have hidle : e.idle = e := h.settled a ha e he
  refine ⟨?_, ?_, ?_⟩
  · rw [← hidle, idle, progressions_withoutProgress]
  · rw [← hidle, idle, cursor_withoutProgress, cursor_start]
  · rw [← state_idle, hidle]

/-- The outer repetition is in a repetition of its own body that has read two items; the bodies of
both wait as they were stored. -/
theorem stored_in_nested_repetitions :
    let m : Matcher Int Interval :=
      (replicate (replicate (literal [1, 2]) (.atLeast 1)) (.atLeast 0)).feed [1, 2, 1]
    ∃ a ∈ m.progressions, ∃ p ∈ a.progressions, p.cursor = 1 ∧
      ∀ e ∈ m.parts ++ a.parts, e.progressions = [] ∧ e.cursor = 0 ∧ e.state = e.start.state := by
  intro m
  have hm : m.Reachable := ((Reachable.literal [1, 2]).replicate _ |>.replicate _).feed _
  obtain ⟨a, ha, p, hp, hcursor⟩ :
      ∃ a ∈ m.progressions, ∃ p ∈ a.progressions, p.cursor = 1 := by decide
  refine ⟨a, ha, p, hp, hcursor, fun e he => ?_⟩
  rcases List.mem_append.mp he with he | he
  · exact stored_of_reachable hm (.self m) he
  · exact stored_of_reachable hm (.progression ha (.self a)) he

/-- What can be asked of a matcher: to start again, to read an item, and to say whether an input
matches, which starts it and reads the input. -/
inductive Call (α : Type) where
  | start
  | read (item : α)
  | accepts (input : List α)

def call (m : Matcher α τ) : Call α → Matcher α τ
  | .start => m.start
  | .read x => m.read x
  | .accepts input => m.start.feed input

/-- The matcher after some calls, one after the other. -/
def after (m : Matcher α τ) (calls : List (Call α)) : Matcher α τ := calls.foldl call m

theorem start_call (m : Matcher α τ) (c : Call α) : (m.call c).start = m.start := by
  cases c with
  | start => exact start_start m
  | read x => exact start_read m x
  | accepts input => exact (start_feed m.start input).trans (start_start m)

theorem start_after (m : Matcher α τ) (calls : List (Call α)) :
    (m.after calls).start = m.start := by
  induction calls generalizing m with
  | nil => rfl
  | cons c calls ih => exact (ih (m.call c)).trans (start_call m c)

theorem idle_after (m : Matcher α τ) (calls : List (Call α)) : (m.after calls).idle = m.idle := by
  rw [idle, start_after, idle]

/-- Whatever has been done with a matcher, starting it again makes it what it was when it was built,
its state and all that it holds; and what is built of matchers that have been used is what is built
of new ones. -/
theorem start_after_calls {d : Demand τ} :
    (∀ m : Matcher α τ, m.Built d → ∀ calls : List (Call α), (m.after calls).start = m) ∧
    (∀ used : List (Matcher α τ × List (Call α)),
      concat (used.map fun u => u.1.after u.2) = concat (used.map Prod.fst) ∧
      either (used.map fun u => u.1.after u.2) = either (used.map Prod.fst)) ∧
    ∀ (m : Matcher α τ) (calls : List (Call α)) (b : Bounds),
      replicate (m.after calls) b = replicate m b := by
  refine ⟨fun m h calls => ?_, fun used => ?_, fun m calls b => ?_⟩
  · rw [start_after, start_of_built h]
  · have hidle : (used.map fun u => u.1.after u.2).map idle = (used.map Prod.fst).map idle := by
      rw [List.map_map, List.map_map]
      exact List.map_congr_left fun u _ => idle_after u.1 u.2
    rw [concat, either, hidle]
    exact ⟨rfl, rfl⟩
  · rw [replicate, idle_after, replicate]

/-- The calls leave progress behind, and starting again clears it away. -/
theorem start_used_sequence :
    let m : Matcher Int Interval := concat [replicate any (.atLeast 1), literal [1, 2]]
    let calls : List (Call Int) := [.read 3, .accepts [1, 1], .read 2, .read 1]
    m.after calls ≠ m ∧ (m.after calls).start = m := by
  intro m calls
  have hm : m.Built {} := by
    refine .concat trivial fun e he => ?_
    simp only [List.mem_cons, List.not_mem_nil, or_false] at he
    rcases he with rfl | rfl
    · exact .replicate trivial (.any trivial)
    · exact .literal _
  exact ⟨by decide, start_after_calls.1 m hm calls⟩

end

end Matcher
end IncrementalRegex
