import IncrementalRegex.Proofs.Ending
import IncrementalRegex.Proofs.Interleaving
import IncrementalRegex.Proofs.Positions

namespace IncrementalRegex

/-- The number of tokens that can be given back before one is got again. -/
def returnedRoom : Nat := 1

/-- The number of tokens that can be known ahead in an expression. -/
def pendingRoom : Nat := 2

/-- The number of tokens that can be known ahead in a bracket. -/
def aheadRoom : Nat := 1

/-- Why nothing is returned: for a fault, or for want of room for a token. -/
inductive Halt (ε : Type) where
  | fault (e : ε)
  | noRoom
deriving DecidableEq, Repr

namespace Guarded

open Descent

variable {β : Type} {s s' : TokenReader}

/-- What comes of `x` where no room is wanting. -/
def plainly {ε : Type} (x : Except ε β) : Except (Halt ε) β := x.mapError .fault

/-- A token is given back if there is room for it. -/
def guarded : Manner (Except (Halt ParseError)) where
  lift x := plainly x
  upTo {_ _ s'} h x t :=
    if s'.returned.size < returnedRoom then .ok (.upTo h x t) else .error .noRoom

def pattern (g : Grammar) (s : TokenReader) : Except (Halt ParseError) Pattern :=
  guarded.pattern g s

/-- The matcher of a pattern, unless room for a token is wanting on the way. -/
def compile (flags : Flags) (text : String) (tag : Nat := 0) :
    Except (Halt PatternError) (Matcher Char CharTest × Nat) :=
  match pattern (.ofFlags flags) (.ofPattern flags text) with
  | .ok p => .ok (p.matcher tag)
  | .error (.fault e) => .error (.fault e.error)
  | .error .noRoom => .error .noRoom

variable {γ : Type} {s₀ s₁ : TokenReader} {g : Grammar} {depth : Nat}

/-- The descent `x` that minds the room comes to what the descent `y` comes to, and leaves one token
at most that was given back. -/
structure Agrees (x : Except (Halt ParseError) (Reading s₀ β))
    (y : Except ParseError (Reading s₀ β)) : Prop where
  eq : x = plainly y
  sound : ∀ r, y = .ok r → r.rest.Sound

theorem plainly_bind {ε δ : Type} {x : Except ε δ} {k : δ → Except (Halt ε) β}
    {k' : δ → Except ε β} (h : ∀ a, x = .ok a → k a = plainly (k' a)) :
    plainly x >>= k = plainly (x >>= k') := by
  cases x with
  | error e => rfl
  | ok a => exact h a rfl

namespace Agrees

theorem lift {y : Except ParseError (Reading s₀ β)} (h : ∀ r, y = .ok r → r.rest.Sound) :
    Agrees (guarded.lift y) (plain.lift y) := ⟨rfl, h⟩

theorem fault {f : Fault} :
    Agrees (guarded.lift (Descent.fault s f : Except _ (Reading s₀ β)))
      (plain.lift (Descent.fault s f)) := by
  refine lift fun r hr => ?_
  rw [Descent.fault] at hr
  cases hr

theorem result {r : Reading s₀ β} (h : r.rest.Sound) : Agrees (pure r) (pure r) := by
  refine ⟨rfl, fun r' hr => ?_⟩
  cases hr
  exact h

/-- The token that was got last can be given back. -/
theorem upTo {h : s'.size < s.size} {x : β} {t : Token} (hclear : s'.Clear) :
    Agrees (guarded.upTo h x t) (plain.upTo h x t) := by
  have hroom : s'.returned.size < returnedRoom := by
    rw [hclear.returned]
    exact Nat.zero_lt_one
  change Agrees (if s'.returned.size < returnedRoom then _ else _) _
  rw [if_pos hroom]
  exact result (hclear.sound_giveBack t)

theorem bind {x : Except (Halt ParseError) (Reading s₀ β)} {y : Except ParseError (Reading s₀ β)}
    {k : Reading s₀ β → Except (Halt ParseError) (Reading s₁ γ)}
    {k' : Reading s₀ β → Except ParseError (Reading s₁ γ)} (h : Agrees x y)
    (hk : ∀ r, r.rest.Sound → Agrees (k r) (k' r)) : Agrees (x >>= k) (y >>= k') := by
  obtain ⟨rfl, hsound⟩ := h
  constructor
  · exact plainly_bind fun r hr => (hk r (hsound r hr)).eq
  · intro r' hr'
    obtain ⟨r, hr, hr'⟩ := bind_eq_ok.1 hr'
    exact (hk r (hsound r hr)).sound r' hr'

theorem take {k : Option (Token × {s' : TokenReader // s'.size < s.size}) →
      Except (Halt ParseError) (Reading s₀ β)}
    {k' : Option (Token × {s' : TokenReader // s'.size < s.size}) →
      Except ParseError (Reading s₀ β)} (hs : s.Sound) (hend : Agrees (k none) (k' none))
    (htoken : ∀ t s', s'.val.Clear → Agrees (k (some (t, s'))) (k' (some (t, s')))) :
    Agrees (guarded.lift (Descent.take s) >>= k) (plain.lift (Descent.take s) >>= k') := by
  have hk (a) (h : Descent.take s = .ok a) : Agrees (k a) (k' a) := by
    cases a with
    | none => exact hend
    | some a => exact htoken a.1 a.2 (clear_of_take hs h)
  constructor
  · exact plainly_bind fun a ha => (hk a ha).eq
  · intro r hr
    obtain ⟨a, ha, hr⟩ := bind_eq_ok.1 hr
    exact (hk a ha).sound r hr

end Agrees

theorem sound_of_follows {p : Parser} {y : Except ParseError (Reading s₀ β)}
    {post : β → TokenReader → Parser → Prop} (h : Follows g p s y post) (r : Reading s₀ β)
    (hr : y = .ok r) : r.rest.Sound := by
  rw [hr] at h
  exact h.1

theorem bounds_agrees {lower : Nat} (hs : s.Sound) :
    Agrees (guarded.lift (bounds lower s)) (plain.lift (bounds lower s)) := by
  have h : Follows (.ofFlags []) ({ expecting := .upperBound lower } : Parser) s
      (bounds lower s) _ := bounds_follows hs rfl
  exact .lift (sound_of_follows h)

theorem bracket_agrees {set : CharSet} {rangeStart : Option Char} (hs : s.Sound) :
    Agrees (guarded.lift (bracket set rangeStart s)) (plain.lift (bracket set rangeStart s)) := by
  have h : Follows (.ofFlags []) ({ expecting := .bracketItem set rangeStart } : Parser) s
      (bracket set rangeStart s) _ := bracket_follows hs rfl
  exact .lift (sound_of_follows h)

theorem repetitions_agrees {s : TokenReader} {p : Pattern} {stacked : Nat} (hs : s.Sound) :
    Agrees (guarded.repetitions depth p stacked s) (plain.repetitions depth p stacked s) := by
  rw [Manner.repetitions, Manner.repetitions]
  apply Agrees.take hs
  · exact .result hs
  · intro t s' hclear
    have hs' := s'.property
    dsimp only
    split
    · split
      · exact .fault
      · apply Agrees.bind (bounds_agrees hclear.sound)
        intro b hsound
        have hb := b.le
        apply Agrees.bind (repetitions_agrees hsound)
        intro r hsound'
        exact .result hsound'
    · exact .upTo hclear
termination_by s.size

theorem atBranchEnd_agrees (hs : s.Sound) :
    Agrees (guarded.atBranchEnd s) (plain.atBranchEnd s) := by
  rw [Manner.atBranchEnd, Manner.atBranchEnd]
  apply Agrees.take hs
  · exact .result hs
  · intro t s' hclear
    exact .upTo hclear

theorem assertion_agrees {d : Dialect} {anchor : Char} {atStart : Bool} (hs : s.Sound) :
    Agrees (guarded.assertion d anchor atStart s) (plain.assertion d anchor atStart s) := by
  rw [Manner.assertion, Manner.assertion]
  split
  · exact .result hs
  split
  · apply Agrees.bind (atBranchEnd_agrees hs)
    intro r hsound
    split
    · exact .fault
    · exact .result hsound
  · exact .fault

theorem groupStart_agrees (hs : s.Sound) : Agrees (guarded.groupStart s) (plain.groupStart s) := by
  rw [Manner.groupStart, Manner.groupStart]
  apply Agrees.take hs
  · exact .fault
  · intro t s' hclear
    dsimp only
    cases t.kind
    case noSubexp => exact .result hclear.sound
    case positiveLookahead => exact .fault
    case negativeLookahead => exact .fault
    all_goals exact .upTo hclear

mutual

theorem alternation_agrees {s : TokenReader} {depth : Nat} (hs : s.Sound) :
    Agrees (guarded.alternation g depth s) (plain.alternation g depth s) := by
  rw [Manner.alternation, Manner.alternation]
  apply Agrees.bind (branch_agrees hs)
  intro first hsound
  have hfirst := first.le
  apply Agrees.bind (alternatives_agrees hsound)
  intro all hsound'
  exact .result hsound'
termination_by 4 * s.size + 2

theorem alternatives_agrees {s : TokenReader} {depth : Nat} {branches : List Pattern}
    (hs : s.Sound) :
    Agrees (guarded.alternatives g depth branches s) (plain.alternatives g depth branches s) := by
  rw [Manner.alternatives, Manner.alternatives]
  apply Agrees.take hs
  · exact .result hs
  · intro t s' hclear
    have hs' := s'.property
    dsimp only
    split
    · apply Agrees.bind (branch_agrees hclear.sound)
      intro b hsound
      have hb := b.le
      apply Agrees.bind (alternatives_agrees hsound)
      intro all hsound'
      exact .result hsound'
    · exact .upTo hclear
termination_by 4 * s.size

theorem branch_agrees {s : TokenReader} {depth : Nat} {elements : List Pattern} (hs : s.Sound) :
    Agrees (guarded.branch g depth elements s) (plain.branch g depth elements s) := by
  rw [Manner.branch, Manner.branch]
  apply Agrees.take hs
  · exact .result hs
  · intro t s' hclear
    have hs' := s'.property
    dsimp only
    split
    · exact .upTo hclear
    · apply Agrees.bind (element_agrees hclear.sound)
      intro e hsound
      have he := e.le
      apply Agrees.bind (repetitions_agrees hsound)
      intro p hsound'
      have hp := p.le
      apply Agrees.bind (branch_agrees hsound')
      intro r hsound''
      exact .result hsound''
termination_by 4 * s.size + 1

theorem element_agrees {s : TokenReader} {depth : Nat} {atStart : Bool} {t : Token}
    (hs : s.Sound) :
    Agrees (guarded.element g depth atStart t s) (plain.element g depth atStart t s) := by
  rw [Manner.element.eq_def, Manner.element.eq_def]
  cases t.kind
  case lParen => exact group_agrees hs
  case assertion => exact assertion_agrees hs
  case stringLiteral => exact .result hs
  case literal => exact .result hs
  case charClass => exact .result hs
  case lBracket =>
    dsimp only
    apply Agrees.bind (bracket_agrees hs)
    intro r hsound
    exact .result hsound
  case repLower =>
    dsimp only
    split
    · apply Agrees.bind (bounds_agrees hs)
      intro b hsound
      exact .result hsound
    · exact .fault
  all_goals exact .fault
termination_by 4 * s.size + 4

theorem group_agrees {s : TokenReader} {depth : Nat} (hs : s.Sound) :
    Agrees (guarded.group g depth s) (plain.group g depth s) := by
  rw [Manner.group, Manner.group]
  split
  · exact .fault
  apply Agrees.bind (groupStart_agrees hs)
  intro start hsound
  have hstart := start.le
  apply Agrees.bind (alternation_agrees hsound)
  intro r hsound'
  apply Agrees.take hsound'
  · exact .fault
  · intro t s' hclear
    dsimp only
    split
    · exact .result hclear.sound
    · exact .fault
termination_by 4 * s.size + 3

end

theorem pattern_eq (hs : s.Sound) : pattern g s = plainly (Descent.pattern g s) := by
  rw [pattern, Descent.pattern, Manner.pattern, Manner.pattern, (alternation_agrees hs).eq]
  apply plainly_bind
  intro r hr
  apply plainly_bind
  intro x hx
  cases x <;> rfl

/-- To mind the room changes nothing. -/
theorem compile_eq (flags : Flags) (text : String) (tag : Nat) :
    compile flags text tag = plainly (IncrementalRegex.compile flags text tag) := by
  rw [compile_eq_descent, compile, Descent.compile, pattern_eq (clear_ofPattern flags text).sound]
  cases Descent.pattern (.ofFlags flags) (.ofPattern flags text) with
  | error e => rfl
  | ok p => rfl

end Guarded

theorem ExpressionReader.pending_of_read {r r' : ExpressionReader} {c c' : Cursor} {t : Token}
    (h : r.read c = .ok (some (t, r', c'))) (hr : r.pending.size ≤ pendingRoom) :
    r'.pending.size ≤ pendingRoom := by
  cases read_eq_some_iff.mp h with
  | known pop =>
    have hsize := Queue.size_pop pop
    dsimp only
    omega
  | single | whole | sign => exact hr
  | cut empty | repetition empty =>
    dsimp only
    rw [Queue.size_push, empty]
    exact Nat.le_succ 1

namespace TokenReader

variable {s s' : TokenReader} {t : Token}

/-- No more tokens are known ahead than there is room for. -/
structure HasRoom (s : TokenReader) : Prop where
  pending : s.expression.pending.size ≤ pendingRoom
  ahead : s.bracket.ahead.size ≤ aheadRoom

theorem HasRoom.readInContext (hs : s.HasRoom) (h : s.readInContext = .ok (some (t, s'))) :
    s'.HasRoom := by
  cases readInContext_eq_some_iff.mp h with
  | expression _ hr | element _ _ hr =>
    exact ⟨ExpressionReader.pending_of_read hr hs.pending, hs.ahead⟩
  | bracket _ hr => exact ⟨hs.pending, BracketReader.size_of_read hr hs.ahead⟩
  | group => exact ⟨hs.pending, hs.ahead⟩

theorem HasRoom.read (hs : s.HasRoom) (h : s.read = .ok (some (t, s'))) : s'.HasRoom := by
  obtain ⟨u, hread, -, rfl⟩ := read_eq_some_iff.mp h
  have hu := hs.readInContext hread
  exact ⟨hu.pending, hu.ahead⟩

theorem Gets.hasRoom {x : Except PatternError (Option Token)} (h : s.Gets x s')
    (hs : s.HasRoom) : s'.HasRoom := by
  cases h with
  | again | finish => exact hs
  | returned => exact ⟨hs.pending, hs.ahead⟩
  | token _ _ read => exact hs.read read
  | fault => exact ⟨Nat.zero_le _, Nat.zero_le _⟩

theorem Reachable.hasRoom {flags : Flags} {pattern : String} (h : Reachable flags pattern s) :
    s.HasRoom := by
  induction h with
  | start => exact ⟨Nat.zero_le _, Nat.zero_le _⟩
  | get _ ih => exact (gets _).hasRoom ih
  | giveBack _ _ ih => exact ⟨ih.pending, ih.ahead⟩

/-- To get a token gives none back. -/
theorem Gets.returned_eq {x : Except PatternError (Option Token)} (h : s.Gets x s')
    (hs : s.returned = {}) : s'.returned = {} := by
  cases h with
  | again | finish => exact hs
  | returned _ pop =>
    rw [hs] at pop
    cases pop
  | token _ _ read => exact (read_keeps read).1.trans hs
  | fault => exact hs

theorem returned_iterate_next (hs : s.returned = {}) (k : Nat) :
    ((fun s : TokenReader => s.next.2)^[k] s).returned = {} := by
  induction k with
  | zero => exact hs
  | succ k ih =>
    rw [Function.iterate_succ_apply']
    rcases after_next ((fun s : TokenReader => s.next.2)^[k] s) with h | h
    · rw [h]
      exact (gets _).returned_eq ih
    · rw [h]
      exact ih

end TokenReader

/-- A token is never kept where there is no room for it.

* However tokens are got and given back, at most two are known ahead in an expression and one in a
  bracket.  To keep a token is the last thing a reading does, so what it leaves tells whether there
  was room, even where the token that is read then turns out to close nothing.
* While the tokens of a pattern are called for one after the other, none is given back.
* A pattern is compiled to the same matcher, or with the same fault, when a token is given back only
  if no other one waits to be got again, and the want of room is an outcome of its own. -/
theorem room_spec (flags : Flags) (pattern : String) :
    (∀ s, TokenReader.Reachable flags pattern s →
      s.HasRoom ∧ ∀ t s', s.readInContext = .ok (some (t, s')) → s'.HasRoom) ∧
    (∀ k, ((fun s => s.next.2)^[k] (TokenReader.ofPattern flags pattern)).returned = {}) ∧
    ∀ tag, Guarded.compile flags pattern tag = (compile flags pattern tag).mapError .fault := by
  refine ⟨fun s hs => ⟨hs.hasRoom, fun t s' h => hs.hasRoom.readInContext h⟩, ?_, ?_⟩
  · exact TokenReader.returned_iterate_next rfl
  · exact Guarded.compile_eq flags pattern

/-- The end of a range is known once its dash is, and there is just room for it. -/
theorem room_at_dash :
    ∃ s t s', TokenReader.Reachable [] "[a-z" s ∧ s.readInContext = .ok (some (t, s')) ∧
      t.kind = .rangeDash ∧ s'.bracket.ahead.size = aheadRoom ∧ s'.HasRoom := by
  have hs : TokenReader.Reachable [] "[a-z" (TokenReader.ofPattern [] "[a-z").get.2.get.2 :=
    .get (.get .start)
  obtain ⟨t, s', hread, hkind, hahead⟩ : ∃ t s',
      (TokenReader.ofPattern [] "[a-z").get.2.get.2.readInContext = .ok (some (t, s')) ∧
        t.kind = .rangeDash ∧ s'.bracket.ahead.size = aheadRoom := by
    exact ⟨_, _, rfl, rfl, rfl⟩
  exact ⟨_, t, s', hs, hread, hkind, hahead, ((room_spec [] "[a-z").1 _ hs).2 t s' hread⟩

end IncrementalRegex
