import IncrementalRegex.Proofs.Run

namespace IncrementalRegex

namespace Leaf

variable {α τ : Type} [ItemTest τ α]

/-- The inputs that a leaf denotes. -/
def language : Leaf α τ → Language α
  | one v => {s | s = [v]}
  | satisfying _ t => {s | ∃ x, passes t x ∧ s = [x]}
  | any => {s | ∃ x, s = [x]}
  | literal before rest => {s | s = before.reverse ++ rest}

end Leaf

def Bounds.Allows (b : Bounds) (count : Nat) : Prop :=
  b.lower ≤ count ∧ (b.isUnbounded ∨ count ≤ b.upper)

namespace Matcher

variable {α τ : Type}

section

variable [ItemTest τ α]

mutual

/-- The inputs that a tree denotes, whatever it has read. -/
def language : Matcher α τ → Language α
  | leaf _ l => l.language
  | sequence _ es _ => product es
  | choice _ bs _ => union bs
  | repetition _ t b _ _ => {s | ∃ k, b.Allows k ∧ s ∈ language t ^ k}
termination_by structural m => m

def product : List (Matcher α τ) → Language α
  | [] => 1
  | e :: es => language e * product es
termination_by structural es => es

def union : List (Matcher α τ) → Language α
  | [] => 0
  | b :: bs => language b + union bs
termination_by structural bs => bs

end

theorem product_eq_prod (es : List (Matcher α τ)) : product es = (es.map language).prod := by
  induction es with
  | nil => rfl
  | cons e es ih => rw [product, ih, List.map_cons, List.prod_cons]

theorem mem_union {bs : List (Matcher α τ)} {s : List α} :
    s ∈ union bs ↔ ∃ b ∈ bs, s ∈ b.language := by
  induction bs with
  | nil => simp [union, Language.notMem_zero]
  | cons b bs ih => rw [union, Language.mem_add, ih]; simp

theorem language_withoutProgress (m : Matcher α τ) : m.withoutProgress.language = m.language := by
  cases m <;> rfl

theorem language_start (m : Matcher α τ) : m.start.language = m.language := by
  cases m with
  | leaf s l =>
    cases l <;> rfl
  | sequence | choice => rfl
  | repetition s t b n live =>
    obtain ⟨s', n', live', h⟩ := start_repetition s t b n live
    rw [h]
    rfl

theorem language_idle (m : Matcher α τ) : m.idle.language = m.language :=
  (language_withoutProgress m.start).trans (language_start m)

theorem language_concat (es : List (Matcher α τ)) :
    (concat es).language = (es.map language).prod := by
  rw [concat, language_start, language, product_eq_prod, List.map_map]
  exact congrArg List.prod (List.map_congr_left fun e _ => language_idle e)

theorem mem_language_either {bs : List (Matcher α τ)} {s : List α} :
    s ∈ (either bs).language ↔ ∃ b ∈ bs, s ∈ b.language := by
  rw [either, language_start, language, mem_union]
  simp [language_idle]

theorem mem_language_replicate {t : Matcher α τ} {b : Bounds} {s : List α} :
    s ∈ (replicate t b).language ↔ ∃ k, b.Allows k ∧ s ∈ t.language ^ k := by
  rw [replicate, language_start, language, language_idle]
  rfl

end

/-- What is asked of the parts of a tree, wherever they stand in it. -/
structure Demand (τ : Type) where
  test : τ → Prop := fun _ => True
  /-- Asked for a leaf that takes any item. -/
  any : Prop := True
  /-- The number of elements in a sequence. -/
  elements : Nat → Prop := fun _ => True
  /-- The number of branches in a choice. -/
  branches : Nat → Prop := fun _ => True
  bounds : Bounds → Prop := fun _ => True

/-- Matchers that are put together of nothing but what `d` admits. -/
inductive Built (d : Demand τ) : Matcher α τ → Prop where
  | one (value : α) : Built d (one value)
  | satisfying (tag : Nat) {test : τ} (h : d.test test) : Built d (satisfying tag test)
  | any (h : d.any) : Built d any
  | literal (text : List α) : Built d (literal text)
  | concat {elements : List (Matcher α τ)} (h : d.elements elements.length)
      (parts : ∀ e ∈ elements, Built d e) : Built d (concat elements)
  | either {branches : List (Matcher α τ)} (h : d.branches branches.length)
      (parts : ∀ b ∈ branches, Built d b) : Built d (either branches)
  | replicate {body : Matcher α τ} {bounds : Bounds} (h : d.bounds bounds)
      (part : Built d body) : Built d (replicate body bounds)

/-- Choices are among something, and the least number of repetitions is not the largest count. -/
def Demand.proper : Demand τ where
  branches n := 0 < n
  bounds b := b.lower < unbounded

/-- Every part can also be read to its end, and sequences are not empty. -/
def Demand.viable (α : Type) [ItemTest τ α] : Demand τ where
  test t := ∃ x : α, passes t x
  any := Nonempty α
  elements n := 0 < n
  branches n := 0 < n
  bounds b := b.lower < unbounded

theorem Built.mono {d d' : Demand τ} {m : Matcher α τ} (h : m.Built d)
    (test : ∀ t, d.test t → d'.test t) (any : d.any → d'.any)
    (elements : ∀ n, d.elements n → d'.elements n) (branches : ∀ n, d.branches n → d'.branches n)
    (bounds : ∀ b, d.bounds b → d'.bounds b) : m.Built d' := by
  induction h with
  | one v => exact .one v
  | satisfying tag h => exact .satisfying tag (test _ h)
  | any h => exact .any (any h)
  | literal text => exact .literal text
  | concat h _ ih => exact .concat (elements _ h) ih
  | either h _ ih => exact .either (branches _ h) ih
  | replicate h _ ih => exact .replicate (bounds _ h) ih

theorem Built.proper [ItemTest τ α] {m : Matcher α τ} (h : m.Built (.viable α)) :
    m.Built .proper :=
  h.mono (fun _ _ => trivial) (fun _ => trivial) (fun _ _ => trivial) (fun _ h => h) (fun _ h => h)

end Matcher
end IncrementalRegex
