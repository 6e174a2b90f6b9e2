import IncrementalRegex.Proofs.Descent
import IncrementalRegex.Proofs.Outcome

namespace IncrementalRegex

namespace TokenReader

variable {s s' : TokenReader} {t : Token}

/-- Nothing is held back, and no fault has been found. -/
structure Clear (s : TokenReader) : Prop where
  error : s.error = none
  returned : s.returned = {}

/-- One token at most is held back, and no fault has been found. -/
structure Sound (s : TokenReader) : Prop where
  error : s.error = none
  returned : s.returned.size ≤ 1

theorem Clear.sound (h : s.Clear) : s.Sound := by
  refine ⟨h.error, ?_⟩
  rw [h.returned]
  exact Nat.zero_le _

theorem Clear.sound_giveBack (h : s.Clear) (t : Token) : (s.giveBack t).Sound := by
  refine ⟨h.error, ?_⟩
  rw [giveBack, Queue.size_push, h.returned]
  exact Nat.le_refl 1

theorem Clear.get_giveBack (h : s.Clear) (t : Token) : (s.giveBack t).get = (.ok (some t), s) := by
  have hpop : (s.giveBack t).returned.pop? = some (t, s.returned) := by
    rw [giveBack, h.returned]
    rfl
  exact get_of_returned h.error hpop

theorem Clear.read (h : s.Clear) (hread : s.read = .ok (some (t, s'))) : s'.Clear := by
  obtain ⟨hr, he⟩ := read_keeps hread
  exact ⟨he.trans h.error, hr.trans h.returned⟩

/-- A token that is got is the only one held back, if there is one. -/
theorem Sound.clear_of_get (h : s.Sound) (hget : s.get = (.ok (some t), s')) : s'.Clear := by
  cases gets_of_get hget with
  | @returned _ returned _ pop =>
    have hsize := Queue.size_pop pop
    have hle := h.returned
    have hzero : returned.items.length = 0 := by
      change returned.size = 0
      omega
    exact ⟨h.error, congrArg Queue.mk (List.length_eq_zero_iff.mp hzero)⟩
  | token error returned read => exact (Clear.mk error returned).read read

end TokenReader

namespace Descent

open TokenReader

variable {g : Grammar} {p p' : Parser} {s s₀ s₁ : TokenReader} {t : Token} {f : Fault}
  {β γ : Type} {s' : {s' : TokenReader // s'.size < s.size}}

theorem take_eq_some_iff : take s = .ok (some (t, s')) ↔ s.get = (.ok (some t), s'.val) := by
  unfold take
  split
  next hget =>
    constructor
    · intro h
      cases h
      exact hget
    · intro h
      obtain ⟨s', hs'⟩ := s'
      cases hget.symm.trans h
      rfl
  next hget => simp [hget]
  next hget => simp [hget]

theorem take_of_get {s' : TokenReader} (h : s.get = (.ok (some t), s')) :
    take s = .ok (some (t, ⟨s', size_get h⟩)) :=
  take_eq_some_iff.mpr h

theorem take_eq_none_iff : take s = .ok none ↔ ∃ s', s.get = (.ok none, s') := by
  unfold take
  split
  next hget => simp [hget]
  next hget => simp [hget]
  next hget => simp [hget]

theorem take_of_error {e : PatternError} (h : s.get = (.error e, s₁)) :
    take s = .error (.token e) := by
  unfold take
  split <;> simp_all

theorem clear_of_take (hs : s.Sound) (h : take s = .ok (some (t, s'))) : s'.val.Clear :=
  hs.clear_of_get (take_eq_some_iff.mp h)

theorem take_giveBack (h : s.Clear) (t : Token) :
    take (s.giveBack t) = .ok (some (t, ⟨s, s.size_giveBack t ▸ Nat.lt_succ_self _⟩)) :=
  take_eq_some_iff.mpr (h.get_giveBack t)

/-- If there is a next token, it is of such a kind. -/
def Next (s : TokenReader) (P : TokenKind → Prop) : Prop :=
  ∀ t s', take s = .ok (some (t, s')) → P t.kind

theorem next_of_end {P : TokenKind → Prop} (h : take s = .ok none) : Next s P := by
  intro t s' htake
  rw [h] at htake
  cases htake

theorem next_giveBack {P : TokenKind → Prop} (hclear : s.Clear) (h : P t.kind) :
    Next (s.giveBack t) P := by
  intro u s' htake
  rw [take_giveBack hclear] at htake
  cases htake
  exact h

/-- What a parser makes of the tokens that are left. -/
def run (g : Grammar) (p : Parser) (s : TokenReader) : Except ParseError Pattern := do
  match ← take s with
  | none => orFault s p.finish
  | some (t, ⟨s', _⟩) => run g (← orFault s' (p.step g t)) s'
termination_by s.size

theorem run_of_error {e : ParseError} (h : take s = .error e) : run g p s = .error e := by
  rw [run, h]
  rfl

theorem run_of_end (h : take s = .ok none) : run g p s = orFault s p.finish := by
  rw [run, h]
  rfl

theorem run_of_token (h : take s = .ok (some (t, s'))) :
    run g p s = orFault s'.val (p.step g t) >>= (run g · s'.val) := by
  rw [run, h]
  rfl

theorem run_of_step (h : take s = .ok (some (t, s'))) (hp : p.step g t = .ok p') :
    run g p s = run g p' s'.val := by
  rw [run_of_token h, hp]
  rfl

theorem run_of_fault (h : take s = .ok (some (t, s'))) (hp : p.step g t = .error f) :
    run g p s = fault s'.val f := by
  rw [run_of_token h, hp]
  rfl

/-- A token given back is taken as if it had never been got. -/
theorem run_giveBack (h : take s = .ok (some (t, s'))) (hclear : s'.val.Clear)
    (hp : p.step g t = p'.step g t) : run g p s = run g p' (s'.val.giveBack t) := by
  rw [run_of_token h, run_of_token (take_giveBack hclear t), hp]

/-- The descent `r` goes in step with the parser `p` at `s`.  Either both fail alike, or the parser
gets to what the descent leaves, as a parser that `post` allows for what has been read. -/
def Follows (g : Grammar) (p : Parser) (s : TokenReader) (r : Except ParseError (Reading s₀ β))
    (post : β → TokenReader → Parser → Prop) : Prop :=
  match r with
  | .error e => run g p s = .error e
  | .ok r => r.rest.Sound ∧ ∃ p', post r.value r.rest p' ∧ run g p s = run g p' r.rest

variable {post : β → TokenReader → Parser → Prop} {post' : γ → TokenReader → Parser → Prop}
  {r : Except ParseError (Reading s₀ β)}

namespace Follows

/-- The parser may have come to `p'` at `s₁` first. -/
theorem of_run (h : Follows g p' s₁ r post) (hrun : run g p s = run g p' s₁) :
    Follows g p s r post := by
  unfold Follows at h ⊢
  rw [hrun]
  exact h

theorem bind {k : Reading s₀ β → Except ParseError (Reading s₁ γ)} (h : Follows g p s r post)
    (hk : ∀ a q, a.rest.Sound → post a.value a.rest q → Follows g q a.rest (k a) post') :
    Follows g p s (r >>= k) post' := by
  cases r with
  | error e => exact h
  | ok a =>
    obtain ⟨hsound, q, hq, hrun⟩ := h
    exact (hk a q hsound hq).of_run hrun

theorem result {x : β} {le : s.size ≤ s₀.size} (hs : s.Sound) (h : post x s p) :
    Follows g p s (pure ⟨x, s, le⟩ : Except ParseError (Reading s₀ β)) post := ⟨hs, p, h, rfl⟩

theorem take {k : Option (Token × {s' : TokenReader // s'.size < s.size}) →
      Except ParseError (Reading s₀ β)} (hs : s.Sound)
    (hend : Descent.take s = .ok none → Follows g p s (k none) post)
    (htoken : ∀ t s', Descent.take s = .ok (some (t, s')) → s'.val.Clear →
      Follows g p s (k (some (t, s'))) post) :
    Follows g p s (Descent.take s >>= k) post := by
  cases h : Descent.take s with
  | error e => exact run_of_error h
  | ok x =>
    cases x with
    | none => exact hend h
    | some x => exact htoken x.1 x.2 h (clear_of_take hs h)

theorem step (htake : Descent.take s = .ok (some (t, s'))) (hp : p.step g t = .ok p')
    (h : Follows g p' s'.val r post) : Follows g p s r post :=
  h.of_run (run_of_step htake hp)

theorem fault_token (htake : Descent.take s = .ok (some (t, s'))) (hp : p.step g t = .error f) :
    Follows g p s (fault s'.val f : Except ParseError (Reading s₀ β)) post :=
  run_of_fault htake hp

/-- A part of what the parser does with a token may be at fault. -/
theorem of_part {δ : Type} {x : Except Fault δ} {j : δ → Except Fault Parser}
    {k : δ → Except ParseError (Reading s₀ β)} (htake : Descent.take s = .ok (some (t, s')))
    (hstep : p.step g t = x >>= j) (h : ∀ c, p.step g t = j c → Follows g p s (k c) post) :
    Follows g p s (orFault s'.val x >>= k) post := by
  cases x with
  | error f => exact fault_token htake hstep
  | ok c => exact h c hstep

theorem fault_end (htake : Descent.take s = .ok none) (hp : p.finish = .error f) :
    Follows g p s (fault s f : Except ParseError (Reading s₀ β)) post := by
  change run g p s = _
  rw [run_of_end htake, hp]
  rfl

/-- What is read up to a token that is given back. -/
theorem upTo {x : β} (htake : Descent.take s = .ok (some (t, s'))) (hclear : s'.val.Clear)
    (hp : p.step g t = p'.step g t) (h : post x (s'.val.giveBack t) p') :
    Follows g p s (pure (.upTo s'.property x t) : Except ParseError (Reading s β)) post :=
  ⟨hclear.sound_giveBack t, p', h, run_giveBack htake hclear hp⟩

end Follows
end Descent
end IncrementalRegex
