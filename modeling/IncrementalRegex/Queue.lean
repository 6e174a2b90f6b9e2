namespace IncrementalRegex

/-- Values read ahead of their use. -/
structure Queue (β : Type) where
  items : List β := []
deriving DecidableEq, Repr

namespace Queue

variable {β : Type}

def isEmpty (q : Queue β) : Bool := q.items.isEmpty

def size (q : Queue β) : Nat := q.items.length

/-- Puts a value behind those already held. -/
def push (q : Queue β) (x : β) : Queue β := ⟨q.items ++ [x]⟩

/-- The value held longest, and the others. -/
def pop? (q : Queue β) : Option (β × Queue β) :=
  match q.items with
  | [] => none
  | x :: xs => some (x, ⟨xs⟩)

theorem size_push (q : Queue β) (x : β) : (q.push x).size = q.size + 1 := by
  simp [size, push]

theorem size_pop {q q' : Queue β} {x : β} (h : q.pop? = some (x, q')) :
    q'.size + 1 = q.size := by
  unfold pop? at h
  split at h <;> simp_all [size]
  grind

end Queue
end IncrementalRegex
