import IncrementalRegex.Proofs.Ending
import IncrementalRegex.Proofs.Onward

namespace IncrementalRegex.TokenReader

variable {s s' : TokenReader} {t : Token} {e : PatternError}

/-- What a call for the next item is answered with: none at the end. -/
abbrev Answer := Option (Except PatternError Token)

namespace Answer

def isFault : Answer → Bool
  | some (.error _) => true
  | _ => false

/-- The answer that is made of what a reader gets. -/
def ofGot : Except PatternError (Option Token) → Answer
  | .ok (some t) => some (.ok t)
  | .ok none => none
  | .error e => some (.error e)

theorem ofGot_injective : Function.Injective ofGot := by
  intro x y h
  rcases x with e | _ | t <;> rcases y with f | _ | u <;> cases h <;> rfl

end Answer

/-- What can be asked of a reader: for its next item, and to take a token back. -/
inductive Call where
  | next
  | giveBack (t : Token)
deriving DecidableEq, Repr

def call (s : TokenReader) : Call → TokenReader
  | .next => s.next.2
  | .giveBack t => s.giveBack t

/-- The reader after some calls, one after the other. -/
def after (s : TokenReader) (calls : List Call) : TokenReader := calls.foldl call s

/-- What the calls are answered with, those for the next item. -/
def answers (s : TokenReader) : List Call → List Answer
  | [] => []
  | .next :: calls => s.next.1 :: (s.call .next).answers calls
  | .giveBack t :: calls => (s.call (.giveBack t)).answers calls

theorem answers_cons (s : TokenReader) (c : Call) (calls : List Call) :
    s.answers (c :: calls) = s.answers [c] ++ (s.call c).answers calls := by
  cases c <;> rfl

/-- As long as no fault has been found, the next item is what is got. -/
theorem next_of_faultless (herror : s.error = none) : s.next = (Answer.ofGot s.get.1, s.get.2) := by
  rw [next, herror]
  rcases s.get with ⟨e | _ | t, s'⟩ <;> rfl

/-- Once a fault has been found it is the next item, if a token has been given back, and nothing
changes any more. -/
theorem next_of_faulty (herror : s.error = some e) :
    s.next = (if s.returned.isEmpty then none else some (.error e), s) := by
  have hget : s.get = (.error e, s) := by rw [get, herror]
  rw [next, herror, hget]
  cases s.returned.isEmpty <;> rfl

theorem gets_of_next {x : Except PatternError (Option Token)} (herror : s.error = none)
    (h : s.next = (Answer.ofGot x, s')) : s.Gets x s' := by
  have hgets := s.gets
  rw [next_of_faultless herror] at h
  obtain ⟨hx, rfl⟩ := Prod.mk.inj h
  rwa [Answer.ofGot_injective hx] at hgets

/-- At the end nothing changes any more. -/
theorem next_of_none (h : s.next = (none, s')) : s' = s := by
  cases herror : s.error with
  | none => exact ((gets_of_next (x := .ok none) herror h).of_none rfl).2.2
  | some e =>
    rw [next_of_faulty herror] at h
    exact (Prod.mk.inj h).2.symm

theorem Gets.of_token (h : s.Gets (.ok (some t)) s') :
    s.cursor.Onward s'.cursor ∧ s'.error = none := by
  cases h with
  | returned error => exact ⟨.refl _, error⟩
  | token error _ read => exact ⟨onward_read read, (read_keeps read).2.trans error⟩

theorem atEnd_of_isEmpty (h : s.isEmpty) : s.cursor.atEnd := by
  rw [isEmpty, Bool.and_eq_true] at h
  obtain ⟨-, h⟩ := h
  cases hcontext : s.context <;> rw [hcontext] at h <;> exact (Bool.and_eq_true_iff.mp h).2

theorem isEmpty_of_weight (hreturned : s.returned = {}) (h : s.weight = 0) : s.isEmpty := by
  have hzero : s.cursor.rest.length = 0 ∧ s.expression.pending.items.length = 0 ∧
      s.bracket.ahead.items.length = 0 := by
    simp only [weight, Cursor.remaining, Queue.size] at h
    omega
  simp only [List.length_eq_zero_iff] at hzero
  obtain ⟨hrest, hpending, hahead⟩ := hzero
  rw [isEmpty, hreturned]
  cases s.context <;>
    simp [Queue.isEmpty, ExpressionReader.isEmpty, BracketReader.isEmpty, Cursor.atEnd, *]

/-- Every item takes something of what the reader can still make items of. -/
theorem length_items_le (hreturned : s.returned = {}) : s.stream.items.length ≤ s.weight := by
  induction s using TokenReader.stream.induct with
  | case1 s e read =>
    rw [stream_of_error read]
    have hweight : s.weight ≠ 0 := by
      intro hweight
      have hnone := (isEmpty_iff_read hreturned).mp (isEmpty_of_weight hreturned hweight)
      rw [read] at hnone
      cases hnone
    exact Nat.pos_of_ne_zero hweight
  | case2 s read =>
    rw [stream_of_end read]
    exact Nat.zero_le _
  | case3 s t s' read ih =>
    have hitems : s.stream.items = .ok t :: s'.stream.items := by
      rw [stream_of_token read]
      rfl
    have hlater := ih ((read_keeps read).1.trans hreturned)
    have hweight := weight_read read
    rw [hitems, List.length_cons]
    omega

theorem after_next_of_none (h : s.next = (none, s)) (k : Nat) :
    s.after (List.replicate k .next) = s ∧
      s.answers (List.replicate k .next) = List.replicate k none := by
  have hcall : s.call .next = s := by rw [call, h]
  induction k with
  | zero => exact ⟨rfl, rfl⟩
  | succ k ih =>
    rw [List.replicate_succ, after, List.foldl_cons, answers, hcall, h]
    exact ⟨ih.1, congrArg _ ih.2⟩

namespace Yields

variable {xs : List (Except PatternError Token)}

theorem answers (h : s.Yields xs) (k : Nat) :
    s.answers (List.replicate (xs.length + k) .next) =
      xs.map some ++ List.replicate k none := by
  induction h with
  | stop next =>
    obtain rfl := next_of_none next
    rw [List.length_nil, Nat.zero_add]
    exact (after_next_of_none next k).2
  | @item s s' x xs next _ ih =>
    have hcall : s.call .next = s' := by rw [call, next]
    rw [List.length_cons, Nat.succ_add, List.replicate_succ, TokenReader.answers, hcall, next, ih]
    rfl

/-- Without a fault all of the text is read. -/
theorem offset (h : s.Yields xs) (herror : s.error = none) (hxs : ∀ e, .error e ∉ xs) (k : Nat) :
    (s.after (List.replicate (xs.length + k) .next)).offset =
      s.cursor.position + s.cursor.remaining := by
  induction h with
  | stop next =>
    obtain rfl := next_of_none next
    have hgets := gets_of_next (x := .ok none) herror next
    obtain ⟨hreturned, hread, -⟩ := hgets.of_none rfl
    have hend := atEnd_of_isEmpty ((isEmpty_iff_read hreturned).mpr hread)
    rw [List.length_nil, Nat.zero_add, (after_next_of_none next k).1, TokenReader.offset,
      Cursor.remaining, Cursor.atEnd_iff.mp hend]
    rfl
  | @item s s' x xs next _ ih =>
    have hcall : s.call .next = s' := by rw [call, next]
    cases x with
    | error e => exact absurd List.mem_cons_self (hxs e)
    | ok t =>
      obtain ⟨honward, herror'⟩ := (gets_of_next (x := .ok (some t)) herror next).of_token
      have hlater := ih herror' fun e he => hxs e (List.mem_cons_of_mem _ he)
      rw [List.length_cons, Nat.succ_add, List.replicate_succ, after, List.foldl_cons, hcall,
        ← honward.length]
      exact hlater

end Yields

/-- A pattern has two items for each of its characters at most, where a fault is an item, and after
them there is none however often one is called for; if none of them is a fault, the whole pattern
has been read. -/
theorem answers_replicate_next (flags : Flags) (pattern : String) :
    let s := ofPattern flags pattern
    let items := s.stream.items
    items.length ≤ 2 * pattern.length ∧ ∀ k,
      s.answers (List.replicate (items.length + k) .next) =
        items.map some ++ List.replicate k none ∧
      ((∀ e, .error e ∉ items) →
        (s.after (List.replicate (items.length + k) .next)).offset = pattern.length) := by
  intro s items
  have hlength : s.cursor.remaining = pattern.length := String.length_toList
  have hyields : s.Yields items := yields_stream rfl rfl
  refine ⟨?_, fun k => ⟨hyields.answers k, fun hitems => ?_⟩⟩
  · have hle : items.length ≤ s.weight := length_items_le rfl
    rw [← hlength]
    exact hle
  · rw [hyields.offset rfl hitems k, hlength]
    exact Nat.zero_add _

/-- As many items as there can be: each of two stars is a pair of bounds. -/
example : ((ofPattern [] "**").answers (List.replicate 5 .next)).countP Option.isSome = 4 := by
  decide

/-- The answers to calls after a fault: none as long as nothing is given back, and the fault from
then on. -/
def afterFault (e : PatternError) : List Call → List Answer
  | [] => []
  | .next :: calls => none :: afterFault e calls
  | .giveBack _ :: calls => List.replicate (calls.count .next) (some (.error e))

theorem giveBack_ne_next (t : Token) : Call.giveBack t ≠ .next := nofun

theorem countP_afterFault (e : PatternError) (calls : List Call) :
    (afterFault e calls).countP Answer.isFault = (calls.dropWhile (· = .next)).count .next := by
  induction calls with
  | nil => rfl
  | cons c calls ih =>
    cases c with
    | next =>
      rw [afterFault, List.countP_cons_of_neg Bool.false_ne_true, ih,
        List.dropWhile_cons_of_pos rfl]
    | giveBack t =>
      rw [afterFault, List.countP_replicate, List.dropWhile_cons_of_neg (by simp),
        List.count_cons_of_ne (giveBack_ne_next t)]
      rfl

/-- A token that was given back after a fault stays, and so does the fault. -/
theorem answers_of_returned (herror : s.error = some e) (hreturned : s.returned.isEmpty = false)
    (calls : List Call) :
    s.answers calls = List.replicate (calls.count .next) (some (.error e)) := by
  induction calls generalizing s with
  | nil => rfl
  | cons c calls ih =>
    cases c with
    | next =>
      have hnext : s.next = (some (.error e), s) := by rw [next_of_faulty herror, hreturned]; rfl
      rw [answers, call, hnext, ih herror hreturned, List.count_cons_self, List.replicate_succ]
    | giveBack t =>
      have hpushed : (s.giveBack t).returned.isEmpty = false := by
        simp [giveBack, Queue.push, Queue.isEmpty]
      rw [answers, call, List.count_cons_of_ne (giveBack_ne_next t)]
      exact ih herror hpushed

theorem answers_of_faulty (herror : s.error = some e) (hreturned : s.returned = {})
    (calls : List Call) : s.answers calls = afterFault e calls := by
  induction calls with
  | nil => rfl
  | cons c calls ih =>
    cases c with
    | next =>
      have hnext : s.next = (none, s) := by rw [next_of_faulty herror, hreturned]; rfl
      rw [answers, call, hnext, ih, afterFault]
    | giveBack t =>
      have hpushed : (s.giveBack t).returned.isEmpty = false := by rw [giveBack, hreturned]; rfl
      exact answers_of_returned (s := s.giveBack t) herror hpushed calls

/-- No answer is a fault, or up to some call none is, and from there on it goes as after a fault. -/
def Stops (s : TokenReader) (calls : List Call) : Prop :=
  (∀ a ∈ s.answers calls, a.isFault = false) ∨
    ∃ before later e, calls = before ++ .next :: later ∧
      (∀ a ∈ s.answers before, a.isFault = false) ∧
      s.answers calls = s.answers before ++ some (.error e) :: afterFault e later

theorem Stops.cons {c : Call} {calls : List Call} (hc : ∀ a ∈ s.answers [c], a.isFault = false)
    (h : (s.call c).Stops calls) : s.Stops (c :: calls) := by
  have hcons (later : List Call) (hlater : ∀ a ∈ (s.call c).answers later, a.isFault = false) :
      ∀ a ∈ s.answers (c :: later), a.isFault = false := by
    intro a ha
    rw [answers_cons, List.mem_append] at ha
    exact ha.elim (hc a) (hlater a)
  rcases h with hnone | ⟨before, later, e, rfl, hbefore, hanswers⟩
  · exact .inl (hcons calls hnone)
  · refine .inr ⟨c :: before, later, e, rfl, hcons before hbefore, ?_⟩
    rw [answers_cons, hanswers, answers_cons s c before, List.append_assoc]

theorem stops_of_faultless (herror : s.error = none) (calls : List Call) : s.Stops calls := by
  induction calls generalizing s with
  | nil => exact .inl (List.forall_mem_nil _)
  | cons c calls ih =>
    cases c with
    | giveBack t => exact .cons (List.forall_mem_nil _) (ih herror)
    | next =>
      have hgets := s.gets
      have hnext := next_of_faultless herror
      generalize s.get.1 = x, s.get.2 = s' at hgets hnext
      have hcall : s.call .next = s' := by rw [call, hnext]
      have hanswers : s.answers [.next] = [Answer.ofGot x] := by rw [answers, hnext]; rfl
      have hlater (hx : (Answer.ofGot x).isFault = false) (herror' : s'.error = none) :
          s.Stops (.next :: calls) := by
        refine .cons ?_ ?_
        · rw [hanswers]
          exact List.forall_mem_singleton.mpr hx
        · rw [hcall]
          exact ih herror'
      cases hgets with
      | again error => rw [error] at herror; cases herror
      | returned | finish => exact hlater rfl herror
      | token _ _ read => exact hlater rfl ((read_keeps read).2.trans herror)
      | @fault e _ returned =>
        refine .inr ⟨[], calls, e, rfl, List.forall_mem_nil _, ?_⟩
        rw [answers_cons, hanswers, hcall, answers_of_faulty (s := s.failed e) rfl returned]
        rfl

/-- However calls for the next item and tokens given back are mixed, the first fault is the last
item as long as nothing is given back after it.  A token that is given back after it is never the
next item: the fault itself is, again and again. -/
theorem answers_around_fault (flags : Flags) (pattern : String) (calls : List Call) :
    let s := ofPattern flags pattern
    (∀ a ∈ s.answers calls, a.isFault = false) ∨
      ∃ before later e, calls = before ++ .next :: later ∧
        (∀ a ∈ s.answers before, a.isFault = false) ∧
        s.answers calls = s.answers before ++ some (.error e) :: afterFault e later ∧
        ((s.answers calls).countP Answer.isFault ≤ 1 ↔ .next ∉ later.dropWhile (· = .next)) := by
  intro s
  have hstops : s.Stops calls := stops_of_faultless rfl calls
  rcases hstops with hnone | ⟨before, later, e, hcalls, hbefore, hanswers⟩
  · exact .inl hnone
  · refine .inr ⟨before, later, e, hcalls, hbefore, hanswers, ?_⟩
    have hcount : (s.answers before).countP Answer.isFault = 0 := by
      rw [List.countP_eq_zero]
      intro a ha
      rw [hbefore a ha]
      nofun
    rw [hanswers, List.countP_append, hcount, List.countP_cons_of_pos rfl, countP_afterFault,
      ← List.count_eq_zero]
    omega

/-- A parenthesis that closes nothing is a fault for each call after a token is given back. -/
theorem faults_again :
    ¬ ((ofPattern [.extended] ")").answers
      [.next, .giveBack (.ofChar .literal 'a'), .next, .next]).countP Answer.isFault ≤ 1 := by
  decide

end IncrementalRegex.TokenReader
