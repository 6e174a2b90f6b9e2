import IncrementalRegex.Proofs.Calls
import IncrementalRegex.Proofs.Faults
import IncrementalRegex.Proofs.Scanning

namespace IncrementalRegex

namespace Cursor

/-- What can be done at a place in a text. -/
inductive Operation where
  | next
  | back
  | number (radix : Nat)
  | digits (n radix : Nat)
  | through (delimiter : List Char)
  | seek (position : Nat)
deriving DecidableEq, Repr

/-- The place after an operation, whatever is read by it. -/
def apply (c : Cursor) : Operation → Cursor
  | .next => (c.next?.map Prod.snd).getD c
  | .back => c.back
  | .number radix => (c.orStay (c.number? radix)).2
  | .digits n radix => (c.orStay (c.digits? n radix)).2
  | .through delimiter => (c.through delimiter).2.2
  | .seek position => c.seek position

/-- The position after an operation at position `p` of a text, reckoned from these two alone. -/
def Operation.target (text : List Char) (p : Nat) : Operation → Nat
  | .next => if p < text.length then p + 1 else p
  | .back => p - 1
  | .number radix => p + ((text.drop p).takeWhile (isDigitIn radix)).length
  | .digits n radix =>
    if n ≤ (text.drop p).length ∧ ((text.drop p).take n).all (isDigitIn radix) then p + n else p
  | .through delimiter =>
    match findDelimiter delimiter (text.drop p) with
    | some span => p + (span.length + delimiter.length)
    | none => text.length
  | .seek position => min position text.length

variable {c c' : Cursor} {e : PatternError}

theorem drop_position (c : Cursor) : c.text.drop c.position = c.rest := by
  rw [text, position, ← List.length_reverse, List.drop_left' rfl]

theorem length_text (c : Cursor) : c.text.length = c.position + c.remaining := by
  rw [text, List.length_append, List.length_reverse, position, remaining]

theorem position_le (c : Cursor) : c.position ≤ c.text.length := by
  rw [length_text]
  exact Nat.le_add_right ..

theorem onward_orStay_number (c : Cursor) (radix : Nat) :
    c.Onward (c.orStay (c.number? radix)).2 := by
  rw [number?]
  split
  · exact .refl c
  · exact onward_advance ..

theorem onward_orStay_digits (c : Cursor) (n radix : Nat) :
    c.Onward (c.orStay (c.digits? n radix)).2 := by
  cases h : c.digits? n radix with
  | none => exact .refl c
  | some p => exact onward_digits h

theorem text_seek (c : Cursor) (n : Nat) : (c.seek n).text = c.text := by
  rw [seek, text_advance]
  rfl

theorem position_seek (c : Cursor) (n : Nat) : (c.seek n).position = min n c.text.length := by
  rw [seek, position, advance, List.length_append, List.length_reverse, List.length_take]
  rfl

/-- No operation changes the text. -/
theorem text_apply (c : Cursor) (op : Operation) : (c.apply op).text = c.text := by
  cases op with
  | next =>
    rw [apply]
    cases h : c.next? with
    | none => rfl
    | some p => exact (onward_next h).text_eq
  | back =>
    obtain ⟨before, rest⟩ := c
    cases before with
    | nil => rfl
    | cons x before => simp [apply, back, text]
  | number radix => exact (onward_orStay_number c radix).text_eq
  | digits n radix => exact (onward_orStay_digits c n radix).text_eq
  | through delimiter => exact (onward_through c delimiter).text_eq
  | seek position => exact text_seek c position

theorem position_apply (c : Cursor) (op : Operation) :
    (c.apply op).position = op.target c.text c.position := by
  have hposition (n : Nat) (hn : n ≤ c.rest.length) : (c.advance n).position = c.position + n := by
    rw [position, advance, List.length_append, List.length_reverse, List.length_take,
      Nat.min_eq_left hn, Nat.add_comm]
    rfl
  cases op with
  | next =>
    rw [Operation.target, length_text, remaining]
    obtain ⟨before, rest⟩ := c
    cases rest <;> simp [apply, next?, position]
  | back =>
    obtain ⟨before, rest⟩ := c
    cases before <;> simp [apply, back, Operation.target, position]
  | number radix =>
    rw [Operation.target, drop_position, apply, number_eq]
    dsimp only
    split_ifs with hnil
    · rw [hnil]
      rfl
    · simp [orStay, position, Nat.add_comm]
  | digits n radix =>
    rw [Operation.target, drop_position, apply, digits_eq]
    split_ifs with h
    · exact hposition n h.1
    · rfl
  | through delimiter =>
    rw [Operation.target, drop_position, apply, through]
    cases h : findDelimiter delimiter c.rest with
    | none =>
      dsimp only
      rw [hposition _ (Nat.le_refl _), length_text]
      rfl
    | some span => exact hposition _ (length_le_of_findDelimiter h)
  | seek position => exact position_seek c position

/-- However operations follow each other, the text stays, and the position can be reckoned from it.
-/
theorem foldl_apply (ops : List Operation) (c : Cursor) :
    (ops.foldl apply c).text = c.text ∧
      (ops.foldl apply c).position = ops.foldl (Operation.target c.text) c.position := by
  induction ops generalizing c with
  | nil => exact ⟨rfl, rfl⟩
  | cons op ops ih =>
    obtain ⟨htext, hposition⟩ := ih (c.apply op)
    rw [text_apply, position_apply] at hposition
    exact ⟨htext.trans (text_apply c op), hposition⟩

/-- A fault is found here or further on. -/
def Finds (c : Cursor) (e : PatternError) : Prop := ∃ c', c.Onward c' ∧ e.offset = c'.position

theorem Onward.finds (h : c.Onward c') (h' : c'.Finds e) : c.Finds e := by
  obtain ⟨c'', hc'', he⟩ := h'
  exact ⟨c'', h.trans hc'', he⟩

theorem finds_fail {β : Type} {kind : ErrorKind} (h : (c.fail kind : Except _ β) = .error e) :
    c.Finds e := by
  cases h
  exact ⟨c, .refl c, rfl⟩

theorem Finds.le (h : c.Finds e) : c.position ≤ e.offset ∧ e.offset ≤ c.text.length := by
  obtain ⟨c', hc', he⟩ := h
  obtain ⟨n, rfl⟩ := hc'
  rw [he, ← text_advance c n]
  refine ⟨?_, position_le _⟩
  simp only [position, advance, List.length_append]
  exact Nat.le_add_left ..

end Cursor

theorem map_eq_error {ε β γ : Type} {x : Except ε β} {f : β → γ} {e : ε} :
    x.map f = .error e ↔ x = .error e := by
  cases x <;> simp [Except.map]

open Cursor

variable {d : Dialect} {c : Cursor} {t : Token} {e : PatternError}

namespace Lexicon

variable {l : Lexicon}

theorem finds_through {kind : TokenKind} {x : Char}
    (h : (match c.through [x, ']'] with
      | (span, true, c) => .ok (.ofString kind span, c)
      | (_, false, c) => c.fail .bracket : Except PatternError (Token × Cursor)) = .error e) :
    c.Finds e := by
  have honward := onward_through c [x, ']']
  generalize c.through [x, ']'] = found at h honward
  obtain ⟨span, closed, d⟩ := found
  cases closed with
  | false => exact honward.finds (finds_fail h)
  | true => cases h

theorem finds_tokenOf {kind : TokenKind} {x : Char} (h : l.tokenOf kind x c = .error e) :
    c.Finds e := by
  unfold tokenOf at h
  cases kind
  case hexEscape =>
    dsimp only at h
    cases hdigits : c.digits? 2 16 <;> rw [hdigits] at h <;> cases h
  case unicodeEscape =>
    dsimp only at h
    cases hdigits : c.digits? 4 16 with
    | none =>
      rw [hdigits] at h
      cases h
    | some p =>
      rw [hdigits] at h
      dsimp only at h
      cases hcode : charOfCode? p.1 with
      | none =>
        rw [hcode] at h
        exact (onward_digits hdigits).finds (finds_fail h)
      | some y =>
        rw [hcode] at h
        cases h
  case control =>
    dsimp only at h
    cases hnext : c.next? with
    | none =>
      rw [hnext] at h
      exact finds_fail h
    | some p =>
      rw [hnext] at h
      dsimp only at h
      split_ifs at h
      exact (onward_next hnext).finds (finds_fail h)
  case className => exact finds_through h
  case equiv => exact finds_through h
  case collate => exact finds_through h
  all_goals cases h

theorem finds_read (h : l.read c = .error e) : c.Finds e := by
  unfold read at h
  cases hnext : c.next? with
  | none =>
    rw [hnext] at h
    cases h
  | some p =>
    obtain ⟨x, d⟩ := p
    refine (onward_next hnext).finds ?_
    rw [hnext] at h
    dsimp only at h
    cases hescape : l.escape? x d with
    | some q =>
      obtain ⟨_, -, hfollower, -⟩ := escape_eq_some_iff.mp hescape
      rw [hescape] at h
      exact (onward_next hfollower).finds (finds_tokenOf (map_eq_error.mp h))
    | none =>
      rw [hescape] at h
      dsimp only at h
      cases hentry : l.alone.kind? x with
      | some kind =>
        rw [hentry] at h
        exact finds_tokenOf (map_eq_error.mp h)
      | none =>
        rw [hentry] at h
        cases h

end Lexicon

namespace Brace

theorem finds_next (h : next d c = .error e) : c.Finds e := by
  rcases bind_eq_error.mp h with hread | ⟨_ | p, -, h⟩
  · exact Lexicon.finds_read hread
  · exact finds_fail h
  · cases h

theorem finds_count (h : count t c = .error e) : c.Finds e := by
  unfold count at h
  split at h
  · cases h
  · exact finds_fail h

theorem finds_bounds {lower upper : Nat} (h : bounds lower upper c = .error e) : c.Finds e := by
  unfold bounds at h
  split at h
  · cases h
  · exact finds_fail h

theorem finds_read (h : read d c = .error e) : c.Finds e := by
  unfold read at h
  split at h
  · cases h
  rcases bind_eq_error.mp h with h | ⟨⟨t, c₁⟩, first, h⟩
  · exact finds_next h
  refine (onward_next first).finds ?_
  rcases bind_eq_error.mp h with h | ⟨lower, -, h⟩
  · exact finds_count h
  rcases bind_eq_error.mp h with h | ⟨⟨u, c₂⟩, second, h⟩
  · exact finds_next h
  refine (onward_next second).finds ?_
  dsimp only at h
  cases hu : u.kind <;> rw [hu] at h
  case rBrace => exact finds_bounds h
  case comma =>
    rcases bind_eq_error.mp h with h | ⟨⟨v, c₃⟩, third, h⟩
    · exact finds_next h
    refine (onward_next third).finds ?_
    dsimp only at h
    split at h
    · exact finds_bounds h
    rcases bind_eq_error.mp h with h | ⟨upper, -, h⟩
    · exact finds_count h
    rcases bind_eq_error.mp h with h | ⟨⟨w, c₄⟩, fourth, h⟩
    · exact finds_next h
    refine (onward_next fourth).finds ?_
    dsimp only at h
    split at h
    · exact finds_bounds h
    · exact finds_fail h
  all_goals exact finds_fail h

end Brace

namespace ExpressionReader

variable {r : ExpressionReader}

theorem finds_ordinaryRun {l : Lexicon} (h : ordinaryRun l c = .error e) : c.Finds e := by
  fun_induction ordinaryRun l c with
  | case1 c _ hread =>
    cases h
    exact Lexicon.finds_read hread
  | case2 | case4 | case5 => cases h
  | case3 c t next hread _ _ hlater ih =>
    cases h
    exact (Lexicon.onward_read hread).finds (ih hlater)

theorem finds_bounds (h : bounds? d t c = .error e) : c.Finds e := by
  unfold bounds? at h
  cases hk : t.kind <;> rw [hk] at h
  case lBrace =>
    rcases bind_eq_error.mp h with h | ⟨_ | p, -, h⟩
    · exact Brace.finds_read h
    · exact finds_fail h
    · cases h
  all_goals cases h

theorem finds_read (h : r.read c = .error e) : c.Finds e := by
  unfold read at h
  split at h
  · cases h
  rcases bind_eq_error.mp h with h | ⟨_ | ⟨t, c₁⟩, first, h⟩
  · exact Lexicon.finds_read h
  · cases h
  refine (Lexicon.onward_read first).finds ?_
  dsimp only at h
  split at h
  · rcases bind_eq_error.mp h with h | ⟨⟨run, repeated, c₂⟩, -, h⟩
    · exact finds_ordinaryRun h
    · dsimp only at h
      split at h
      · split at h <;> cases h
      · cases h
  · rcases bind_eq_error.mp h with h | ⟨_ | ⟨b, c₂⟩, -, h⟩
    · exact finds_bounds h
    · cases h
    · cases h

end ExpressionReader

namespace BracketReader

variable {r : BracketReader}

theorem finds_raw (h : r.raw d c = .error e) : c.Finds e := by
  unfold raw at h
  split at h
  · cases h
  · rcases bind_eq_error.mp h with h | ⟨_ | p, -, h⟩
    · exact Lexicon.finds_read h
    · cases h
    · cases h

theorem finds_read (h : r.read d c = .error e) : c.Finds e := by
  rcases bind_eq_error.mp h with h | ⟨_ | ⟨t, ahead, c₁⟩, hraw, h⟩
  · exact finds_raw h
  · cases h
  refine (onward_raw hraw).finds ?_
  dsimp only at h
  split at h
  · rcases bind_eq_error.mp h with h | ⟨_ | p, -, h⟩
    · exact Lexicon.finds_read h
    · cases h
    · cases h
  · cases h

end BracketReader

namespace TokenReader

variable {s s' : TokenReader}

theorem finds_readInContext (h : s.readInContext = .error e) : s.cursor.Finds e := by
  unfold readInContext at h
  cases hc : s.context <;> rw [hc] at h
  case expression =>
    rcases bind_eq_error.mp h with h | ⟨_ | p, -, h⟩
    · exact ExpressionReader.finds_read h
    · cases h
    · cases h
  case bracket =>
    rcases bind_eq_error.mp h with h | ⟨_ | p, -, h⟩
    · exact BracketReader.finds_read h
    · cases h
    · cases h
  case subexpression =>
    rcases bind_eq_error.mp h with h | ⟨_ | p, -, h⟩
    · exact Lexicon.finds_read h
    · rcases bind_eq_error.mp h with h | ⟨_ | p, -, h⟩
      · exact ExpressionReader.finds_read h
      · cases h
      · cases h
    · cases h

theorem finds_read (h : s.read = .error e) : s.cursor.Finds e := by
  rcases bind_eq_error.mp h with h | ⟨_ | ⟨t, s₁⟩, hread, h⟩
  · exact finds_readInContext h
  · cases h
  dsimp only at h
  split at h
  · exact (onward_readInContext hread).finds (finds_fail h)
  · cases h

/-- The reader is at a place in a pattern, and so is the fault, if one has been found. -/
structure Placed (pattern : List Char) (s : TokenReader) : Prop where
  text : s.cursor.text = pattern
  error : ∀ e, s.error = some e → e.offset ≤ pattern.length

variable {pattern : List Char}

theorem Placed.offset_le (h : s.Placed pattern) : s.offset ≤ pattern.length := by
  rw [← h.text]
  exact position_le s.cursor

theorem Placed.read (hs : s.Placed pattern) (h : s.read = .ok (some (t, s'))) :
    s'.Placed pattern := by
  have htext := (onward_read h).text_eq
  have herror := (read_keeps h).2
  refine ⟨htext.trans hs.text, fun e he => hs.error e ?_⟩
  rwa [herror] at he

/-- Where a fault is found, the reader goes on to it. -/
theorem Placed.failed (hs : s.Placed pattern) (h : s.read = .error e) :
    (s.failed e).Placed pattern ∧ s.offset ≤ (s.failed e).offset ∧ e.offset ≤ pattern.length := by
  obtain ⟨hlower, hupper⟩ := (finds_read h).le
  have hoffset : (s.failed e).offset = e.offset := by
    rw [offset, TokenReader.failed, position_seek, Nat.min_eq_left hupper]
  rw [hs.text] at hupper
  refine ⟨⟨(text_seek _ _).trans hs.text, fun e' he' => ?_⟩, ?_, hupper⟩
  · cases he'
    exact hupper
  · rw [hoffset]
    exact hlower

theorem Gets.placed {x : Except PatternError (Option Token)} (h : s.Gets x s')
    (hs : s.Placed pattern) :
    s'.Placed pattern ∧ s.offset ≤ s'.offset ∧ ∀ e, x = .error e → e.offset ≤ pattern.length := by
  cases h with
  | again error =>
    refine ⟨hs, Nat.le_refl _, fun e he => hs.error e ?_⟩
    rwa [Except.error.inj he] at error
  | returned => exact ⟨⟨hs.text, hs.error⟩, Nat.le_refl _, fun e he => by cases he⟩
  | token _ _ read =>
    obtain ⟨n, hn⟩ := onward_read read
    refine ⟨hs.read read, ?_, fun e he => by cases he⟩
    rw [offset, offset, hn, position, position, advance, List.length_append]
    exact Nat.le_add_left ..
  | finish => exact ⟨hs, Nat.le_refl _, fun e he => by cases he⟩
  | fault _ _ read =>
    obtain ⟨hs', hle, he⟩ := hs.failed read
    refine ⟨hs', hle, fun e' he' => ?_⟩
    cases he'
    exact he

theorem Reachable.placed {flags : Flags} {pattern : String} (h : Reachable flags pattern s) :
    s.Placed pattern.toList := by
  induction h with
  | start => exact ⟨rfl, nofun⟩
  | get _ ih => exact ((gets _).placed ih).1
  | giveBack _ t ih => exact ⟨ih.text, ih.error⟩

/-- To call for the next item is to get a token, or changes nothing. -/
theorem after_next (s : TokenReader) : s.next.2 = s.get.2 ∨ s.next.2 = s := by
  cases herror : s.error with
  | none => exact .inl (by rw [next_of_faultless herror])
  | some e => exact .inr (by rw [next_of_faulty herror])

/-- All of a stream has its place in the text: every token up to which something is read, and the
fault at the end. -/
theorem Placed.stream (hs : s.Placed pattern) :
    (∀ l ∈ s.stream.lexemes, l.offset ≤ pattern.length) ∧
      ∀ e, s.stream.fault = some e → e.offset ≤ pattern.length := by
  induction s using TokenReader.stream.induct with
  | case1 s e read =>
    rw [stream_of_error read]
    refine ⟨List.forall_mem_nil _, fun e' he' => ?_⟩
    cases he'
    exact (hs.failed read).2.2
  | case2 s read =>
    rw [stream_of_end read]
    exact ⟨List.forall_mem_nil _, fun e he => by cases he⟩
  | case3 s t s' read ih =>
    obtain ⟨hlexemes, hfault⟩ := ih (hs.read read)
    rw [stream_of_token read]
    exact ⟨List.forall_mem_cons.mpr ⟨(hs.read read).offset_le, hlexemes⟩, hfault⟩

end TokenReader

namespace TokenStream

variable {g : Grammar} {n : Nat} {stream : TokenStream}

theorem offset_of_takeFrom {p : Parser} {error : ParseError}
    (h : stream.takeFrom g p = .error error) : ∃ l ∈ stream.lexemes, error.error.offset = l.offset
    := by
  obtain ⟨lexemes, fault⟩ := stream
  induction lexemes generalizing p with
  | nil => cases h
  | cons l lexemes ih =>
    rw [takeFrom, List.foldlM_cons] at h
    cases hstep : p.step g l.token with
    | error f =>
      rw [hstep] at h
      cases h
      exact ⟨l, List.mem_cons_self, rfl⟩
    | ok q =>
      rw [hstep] at h
      obtain ⟨l', hl', hoffset⟩ := ih h
      exact ⟨l', List.mem_cons_of_mem l hl', hoffset⟩

theorem offset_le (h : ∀ l ∈ stream.lexemes, l.offset ≤ n) : stream.offset ≤ n := by
  rw [offset]
  cases hlast : stream.lexemes.getLast? with
  | none => exact Nat.zero_le n
  | some l => exact h l (List.mem_of_getLast? hlast)

/-- Tokens that make no sense do so where one of them ends. -/
theorem offset_le_of_parse {error : ParseError} (hlexemes : ∀ l ∈ stream.lexemes, l.offset ≤ n)
    (hfault : ∀ e, stream.fault = some e → e.offset ≤ n) (h : stream.parse g = .error error) :
    error.error.offset ≤ n := by
  rcases bind_eq_error.mp h with h | ⟨last, -, h⟩
  · obtain ⟨l, hl, hoffset⟩ := offset_of_takeFrom h
    rw [hoffset]
    exact hlexemes l hl
  · cases hend : stream.fault with
    | some e =>
      rw [hend] at h
      cases h
      exact hfault e hend
    | none =>
      rw [hend] at h
      obtain ⟨f, -, rfl⟩ := mapError_eq_error.mp h
      exact offset_le hlexemes

end TokenStream

theorem offset_le_of_compile {flags : Flags} {pattern : String} {tag : Nat} {e : PatternError}
    (h : compile flags pattern tag = .error e) : e.offset ≤ pattern.length := by
  have hstart : (TokenReader.ofPattern flags pattern).Placed pattern.toList := ⟨rfl, nofun⟩
  obtain ⟨hlexemes, hfault⟩ := hstart.stream
  unfold compile at h
  dsimp only at h
  generalize hparse : (TokenStream.ofPattern flags pattern).parse _ = parsed at h
  cases parsed with
  | ok p => cases h
  | error error =>
    cases h
    exact TokenStream.offset_le_of_parse hlexemes hfault hparse

/-- Wherever one reads on, goes back or is sent in a pattern, the position is never beyond its end.
So neither is that of a fault, whether a token or the whole pattern is read, and between tokens the
offset never falls. -/
theorem positions_spec (flags : Flags) (pattern : String) :
    (∀ ops : List Operation,
      ops.foldl (Operation.target pattern.toList) 0 =
        (ops.foldl apply (.start pattern.toList)).position ∧
      (ops.foldl apply (.start pattern.toList)).position ≤ pattern.length) ∧
    (∀ tag e, compile flags pattern tag = .error e → e.offset ≤ pattern.length) ∧
    ∀ s, TokenReader.Reachable flags pattern s →
      s.offset ≤ s.get.2.offset ∧ s.offset ≤ s.next.2.offset ∧
      s.get.2.offset ≤ pattern.length ∧
      ∀ e, s.get.1 = .error e → e.offset ≤ pattern.length := by
  refine ⟨fun ops => ?_, fun tag e h => offset_le_of_compile h, fun s h => ?_⟩
  · obtain ⟨htext, hposition⟩ := foldl_apply ops (.start pattern.toList)
    have hle := position_le (ops.foldl apply (.start pattern.toList))
    rw [htext] at hle
    exact ⟨hposition.symm, hle⟩
  · obtain ⟨hplaced, hle, herror⟩ := s.gets.placed h.placed
    refine ⟨hle, ?_, hplaced.offset_le, herror⟩
    rcases s.after_next with hnext | hnext
    · rwa [hnext]
    · rw [hnext]

/-- A class that is not closed is a fault at the end of the text, and behind the bracket that it
stands in. -/
theorem positions_of_unclosed_class :
    compile [.extended] "[[:alpha" = .error ⟨.bracket, 8⟩ ∧ 8 ≤ "[[:alpha".length ∧
    ∃ s, TokenReader.Reachable [.extended] "[[:alpha" s ∧ s.offset = 1 ∧
      s.get.1 = .error ⟨.bracket, 8⟩ ∧ s.offset ≤ s.get.2.offset ∧
      s.get.2.offset ≤ "[[:alpha".length := by
  have hcompile : compile [.extended] "[[:alpha" = .error ⟨.bracket, 8⟩ := by cbv
  have hspec := positions_spec [.extended] "[[:alpha"
  have hs : TokenReader.Reachable [.extended] "[[:alpha" _ := .get .start
  obtain ⟨hle, -, hend, -⟩ := hspec.2.2 _ hs
  exact ⟨hcompile, hspec.2.1 0 _ hcompile, _, hs, rfl, rfl, hle, hend⟩

end IncrementalRegex
