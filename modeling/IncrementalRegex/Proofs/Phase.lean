import IncrementalRegex.Proofs.Agreement
import IncrementalRegex.Proofs.Iteration
import IncrementalRegex.Proofs.Kinds

namespace IncrementalRegex

/-- Where in a sequence of tokens the next one stands. -/
inductive Phase where
  /-- Where an element may stand. -/
  | outside
  /-- Directly after an opening parenthesis. -/
  | opened
  /-- Between the two bounds of a repetition. -/
  | repeated (lower : Nat)
  | inside (place : BracketPlace)
deriving DecidableEq, Repr

namespace Phase

/-- Counts that a repetition may have as its upper bound. -/
def Reachable (upper : Nat) : Prop := upper ≤ Brace.largestWritten ∨ upper = unbounded

def context : Phase → Context
  | outside | repeated _ => .expression
  | opened => .subexpression
  | inside _ => .bracket

/-- A token that may stand in a phase, and the phase after it. -/
inductive Step : Phase → Token → Phase → Prop where
  | plain {ph : Phase} {t : Token} (place : ph = outside ∨ ph = opened) (kind : t.kind.isPlain) :
      Step ph t outside
  | openGroup {ph : Phase} {t : Token} (place : ph = outside ∨ ph = opened)
      (kind : t.kind = .lParen) : Step ph t opened
  | openBracket {ph : Phase} {t : Token} (place : ph = outside ∨ ph = opened)
      (kind : t.kind = .lBracket) : Step ph t (inside .start)
  | lower {ph : Phase} {t : Token} (place : ph = outside ∨ ph = opened)
      (kind : t.kind = .repLower) : Step ph t (repeated t.count)
  | upper {lower : Nat} {t : Token} (kind : t.kind = .repUpper) (le : lower ≤ t.count)
      (reachable : Reachable t.count) : Step (repeated lower) t outside
  | qualifier {t : Token} (kind : t.kind.qualifiesGroup) : Step opened t outside
  | item {place : BracketPlace} {t : Token} (kind : t.kind.standsInBracket)
      (negation : t.kind = .negation → place = .start)
      (dash : t.kind = .rangeDash → place = .afterRangeStart) :
      Step (inside place) t (inside (place.after t))
  | closeBracket {place : BracketPlace} {t : Token} (kind : t.kind = .rBracket)
      (start : place ≠ .start) (caret : place ≠ .afterCaret) (dash : place ≠ .afterDash) :
      Step (inside place) t outside

/-- The tokens read so far, and the phase that they lead to. -/
inductive Reached : List Token → Phase → Prop where
  | start : Reached [] outside
  | snoc {ts : List Token} {t : Token} {ph ph' : Phase} (before : Reached ts ph)
      (step : Step ph t ph') : Reached (ts ++ [t]) ph'

theorem context_after_plain {kind : TokenKind} (h : kind.isPlain ∨ kind.qualifiesGroup) :
    Context.after .expression kind = .expression ∧
      Context.after .subexpression kind = .expression := by
  cases kind <;> first | exact ⟨rfl, rfl⟩ | rcases h with h | h <;> cases h

theorem Step.context_after {ph ph' : Phase} {t : Token} (h : Step ph t ph') :
    ph'.context = ph.context.after t.kind := by
  cases h with
  | plain place kind =>
    obtain ⟨houtside, hopened⟩ := context_after_plain (.inl kind)
    rcases place with rfl | rfl
    · exact houtside.symm
    · exact hopened.symm
  | qualifier kind => exact (context_after_plain (.inr kind)).2.symm
  | openGroup place kind | openBracket place kind | lower place kind =>
    rw [kind]
    rcases place with rfl | rfl <;> rfl
  | upper kind | closeBracket kind =>
    rw [kind]
    rfl
  | item kind => exact (Context.after_of_standsInBracket kind).symm

end Phase

open Phase

theorem Bounds.upper_of_between {lower upper : Nat} {b : Bounds}
    (h : Bounds.between? lower upper = some b) : b.upper = upper := by
  unfold between? at h
  split_ifs at h
  cases h
  rfl

theorem Brace.reachable_of_read {d : Dialect} {c c' : Cursor} {b : Bounds}
    (h : read d c = .ok (some (b, c'))) : Reachable b.upper := by
  cases read_eq_some_iff.mp h with
  | exactly _ written _ _ bounds =>
    rw [Bounds.upper_of_between bounds]
    exact .inl written.2
  | atLeast _ _ _ _ _ _ bounds => exact .inr (Bounds.upper_of_between bounds)
  | between _ _ _ _ _ written _ _ bounds =>
    rw [Bounds.upper_of_between bounds]
    exact .inl written.2

namespace ExpressionReader

variable {r r' : ExpressionReader} {c c' : Cursor} {t : Token} {ph : Phase}

theorem reachable_of_bounds {d : Dialect} {b : Bounds}
    (h : bounds? d t c = .ok (some (b, c'))) : Reachable b.upper := by
  cases bounds_eq_ok_iff.mp h with
  | sign =>
    split_ifs
    · exact .inl (by decide)
    · exact .inr rfl
    · exact .inr rfl
  | brace _ read => exact Brace.reachable_of_read read

theorem kind_of_no_bounds {d : Dialect} (h : bounds? d t c = .ok none) :
    t.kind ≠ .lBrace ∧ t.kind ≠ .replication := by
  cases bounds_eq_ok_iff.mp h with
  | none replication brace => exact ⟨brace, replication⟩

/-- The tokens that a reader knows ahead are those that its phase asks for. -/
def Waits (r : ExpressionReader) : Phase → Prop
  | .outside => r.pending = {} ∨ ∃ x, r.pending = ⟨[.ofChar .literal x]⟩
  | .repeated lower => ∃ upper, r.pending = ⟨[.ofCount .repUpper upper]⟩ ∧ lower ≤ upper ∧
      Reachable upper
  | .opened | .inside _ => r.pending = {}

/-- A reader that knows nothing ahead returns what may stand outside of brackets. -/
theorem step_of_fresh (empty : r.pending = {}) (h : r.read c = .ok (some (t, r', c')))
    (place : ph = .outside ∨ ph = .opened) : ∃ ph', Step ph t ph' ∧ r'.Waits ph' := by
  cases read_eq_some_iff.mp h with
  | known hp =>
    rw [Queue.pop_eq_none_iff.mpr empty] at hp
    cases hp
  | single | whole => exact ⟨.outside, .plain place rfl, .inl empty⟩
  | @cut _ _ _ _ last =>
    refine ⟨.outside, .plain place rfl, .inr ⟨last, ?_⟩⟩
    rw [empty]
    rfl
  | sign _ first _ bounds =>
    obtain ⟨hbrace, hreplication⟩ := kind_of_no_bounds bounds
    rcases Lexicon.kind_of_read_expression first with hk | hk | hk | hk | hk
    · exact ⟨.outside, .plain place hk, .inl empty⟩
    · exact ⟨.opened, .openGroup place hk, empty⟩
    · exact ⟨.inside .start, .openBracket place hk, empty⟩
    · exact absurd hk hbrace
    · exact absurd hk hreplication
  | @repetition _ _ _ b _ _ _ bounds =>
    refine ⟨.repeated b.lower, .lower place rfl, b.upper, ?_, b.lower_le_upper,
      reachable_of_bounds bounds⟩
    rw [empty]
    rfl

theorem step_of_read (hw : r.Waits ph) (hph : ph.context ≠ .bracket)
    (h : r.read c = .ok (some (t, r', c'))) : ∃ ph', Step ph t ph' ∧ r'.Waits ph' := by
  have known {u : Token} (hp : r.pending = ⟨[u]⟩) : t = u ∧ r'.pending = {} := by
    have hpop : r.pending.pop? = some (u, {}) := by rw [hp]; rfl
    rw [read, hpop] at h
    cases h
    exact ⟨rfl, rfl⟩
  cases ph with
  | outside =>
    rcases hw with empty | ⟨x, hp⟩
    · exact step_of_fresh empty h (.inl rfl)
    · obtain ⟨rfl, empty⟩ := known hp
      exact ⟨.outside, .plain (.inl rfl) rfl, .inl empty⟩
  | opened => exact step_of_fresh hw h (.inr rfl)
  | repeated lower =>
    obtain ⟨upper, hp, le, reachable⟩ := hw
    obtain ⟨rfl, empty⟩ := known hp
    exact ⟨.outside, .upper rfl le reachable, .inl empty⟩
  | inside => contradiction

end ExpressionReader

namespace BracketPlace

variable {p : BracketPlace} {t : Token}

theorem start_of_negation (h : (p.meaning t).kind = .negation) : p = .start := by
  unfold meaning at h
  split at h <;> simp_all [Token.ofChar]

theorem afterRangeStart_of_dash (h : (p.meaning t).kind = .rangeDash) : p = .afterRangeStart := by
  unfold meaning at h
  split at h <;> simp_all [Token.ofChar]

theorem closes_of_meaning (h : (p.meaning t).kind = .rBracket) :
    t.kind = .rBracket ∧ p ≠ .start ∧ p ≠ .afterCaret := by
  unfold meaning at h
  split at h <;> simp_all [Token.ofChar]

theorem standsInBracket_meaning (h : t.kind.standsInBracket ∨ t.kind = .rBracket) :
    (p.meaning t).kind.standsInBracket ∨ (p.meaning t).kind = .rBracket := by
  unfold meaning
  split <;> simp_all [Token.ofChar, TokenKind.standsInBracket]

theorem dash_of_afterDash (h : p.after t = .afterDash) : t.kind = .rangeDash := by
  unfold after at h
  split at h <;> try split_ifs at h
  all_goals simp_all

end BracketPlace

namespace BracketReader

variable {d : Dialect} {r r' : BracketReader} {c c' : Cursor} {t : Token}

/-- In the middle of a bracket.  After a dash it is known that the bracket is not closed next. -/
structure Steady (r : BracketReader) (c : Cursor) : Prop where
  size : r.ahead.size ≤ 1
  kinds : ∀ t ∈ r.ahead.items, t.kind.standsInBracket ∨ t.kind = .rBracket
  dash : r.place = .afterDash → (∀ t ∈ r.ahead.items, t.kind ≠ .rBracket) ∧
    (r.ahead = {} → c.rest = [])

theorem steady_start (c : Cursor) : Steady {} c :=
  ⟨Nat.zero_le 1, List.forall_mem_nil _, nofun⟩

theorem Steady.raw (h : r.Steady c) {ahead : Queue Token}
    (hr : r.raw d c = .ok (some (t, ahead, c'))) : ahead = {} ∧
      (t.kind.standsInBracket ∨ t.kind = .rBracket) ∧
      (r.place = .afterDash → t.kind ≠ .rBracket) := by
  refine ⟨ahead_of_raw hr h.size, ?_⟩
  rcases raw_eq_some_iff.mp hr with ⟨hitems, -⟩ | ⟨empty, -, hread⟩
  · have hmem : t ∈ r.ahead.items := by simp [hitems]
    exact ⟨h.kinds t hmem, fun hp => (h.dash hp).1 t hmem⟩
  · refine ⟨Lexicon.kind_of_read_bracket hread, fun hp => ?_⟩
    rw [Lexicon.read_of_rest_nil ((h.dash hp).2 empty)] at hread
    cases hread

/-- A token of a bracket may stand where it stands, and the reader goes on behind it. -/
theorem step_of_read (h : r.Steady c) (hr : r.read d c = .ok (some (t, r', c'))) :
    t.kind = .rBracket ∧ Step (.inside r.place) t .outside ∨
      Step (.inside r.place) t (.inside r'.place) ∧ r'.Steady c' := by
  have hsize : r'.ahead.size ≤ 1 := size_of_read hr h.size
  cases read_eq_some_iff.mp hr with
  | @plain u ahead _ raw kind =>
    obtain ⟨rfl, hkind, hclosing⟩ := h.raw raw
    have hdash : (r.place.meaning u).kind ≠ .rangeDash := by
      intro hk
      simp [Token.hasKind, hk] at kind
    rcases BracketPlace.standsInBracket_meaning (p := r.place) hkind with hk | hk
    · refine .inr ⟨.item hk BracketPlace.start_of_negation fun hk => absurd hk hdash, ?_⟩
      refine ⟨hsize, List.forall_mem_nil _, fun hp => ?_⟩
      exact absurd (BracketPlace.dash_of_afterDash hp) hdash
    · obtain ⟨hu, hstart, hcaret⟩ := BracketPlace.closes_of_meaning hk
      exact .inl ⟨hk, .closeBracket hk hstart hcaret fun hp => hclosing hp hu⟩
  | @lastDash u ahead e raw kind next =>
    obtain ⟨rfl, -, -⟩ := h.raw raw
    have hk : (r.place.meaning u).kind = .rangeDash := eq_of_beq kind
    refine .inr ⟨.item (by rw [hk]; rfl) BracketPlace.start_of_negation
      BracketPlace.afterRangeStart_of_dash, hsize, List.forall_mem_nil _, fun _ => ?_⟩
    exact ⟨List.forall_mem_nil _, fun _ => Lexicon.rest_of_read_none rfl next⟩
  | @dash u v ahead e _ raw kind next closing =>
    obtain ⟨rfl, -, -⟩ := h.raw raw
    have hk : (r.place.meaning u).kind = .rangeDash := eq_of_beq kind
    refine .inr ⟨.item (by rw [hk]; rfl) BracketPlace.start_of_negation
      BracketPlace.afterRangeStart_of_dash, hsize, ?_, fun _ => ⟨?_, ?_⟩⟩
    · simpa [Queue.push] using Lexicon.kind_of_read_bracket next
    · simpa [Queue.push, Token.hasKind] using closing
    · intro hempty
      cases hempty
  | @literalDash u v ahead e _ raw kind next closing =>
    obtain ⟨rfl, -, -⟩ := h.raw raw
    have hstep : Step (.inside r.place) (.ofChar .bracketLiteral '-') _ :=
      .item rfl (by intro h; cases h) (by intro h; cases h)
    refine .inr ⟨hstep, hsize, ?_, fun hp => ?_⟩
    · simpa [Queue.push] using Lexicon.kind_of_read_bracket next
    · have hdash := BracketPlace.dash_of_afterDash hp
      cases hdash

end BracketReader

namespace TokenReader

variable {s s' : TokenReader} {t : Token} {ph : Phase}

/-- The reader is in a phase. -/
structure Stands (s : TokenReader) (ph : Phase) : Prop where
  context : s.context = ph.context
  waits : s.expression.Waits ph
  idle : ph.context ≠ .bracket → s.bracket = {}
  steady : ∀ place, ph = .inside place → s.bracket.place = place ∧ s.bracket.Steady s.cursor

theorem stands_start (d : Dialect) (ignoreCase : Bool) (text : List Char) :
    (start d ignoreCase text).Stands .outside :=
  ⟨rfl, .inl rfl, fun _ => rfl, nofun⟩

theorem stands_of_read (hs : s.Stands ph) (h : s.read = .ok (some (t, s'))) :
    ∃ ph', Step ph t ph' ∧ s'.Stands ph' := by
  obtain ⟨u, hread, -, rfl⟩ := read_eq_some_iff.mp h
  have hcontext := hs.context
  have hwaits := hs.waits
  cases readInContext_eq_some_iff.mp hread with
  | expression context hr | element context _ hr =>
    have hph : ph.context ≠ .bracket := by simp [← hcontext, context]
    obtain ⟨ph', step, waits⟩ := ExpressionReader.step_of_read hwaits hph hr
    have hbracket : s.bracket = {} := hs.idle hph
    refine ⟨ph', step, ?_, waits, fun _ => hbracket, fun place hplace => ?_⟩
    · rw [step.context_after, ← hcontext]
    · rw [hbracket]
      subst hplace
      cases step with
      | openBracket => exact ⟨rfl, BracketReader.steady_start _⟩
      | item => contradiction
  | bracket context hr =>
    obtain ⟨place, rfl⟩ : ∃ place, ph = .inside place := by
      cases ph <;> simp_all [Phase.context]
    obtain ⟨rfl, steady⟩ := hs.steady place rfl
    rcases BracketReader.step_of_read steady hr with ⟨hk, step⟩ | ⟨step, steady'⟩
    · refine ⟨.outside, step, ?_, .inl hwaits, fun _ => ?_, nofun⟩
      · rw [step.context_after, ← hcontext]
      · exact BracketReader.eq_start_of_close hr steady.size hk
    · refine ⟨_, step, ?_, hwaits, nofun, fun place hplace => ?_⟩
      · rw [step.context_after, ← hcontext]
      · cases hplace
        exact ⟨rfl, steady'⟩
  | group context hr =>
    obtain rfl : ph = .opened := by
      cases ph <;> simp_all [Phase.context]
    have step : Step .opened t .outside := .qualifier (Lexicon.kind_of_read_group hr)
    refine ⟨.outside, step, ?_, .inl hwaits, fun _ => hs.idle nofun, nofun⟩
    rw [step.context_after, ← hcontext]

/-- Between the bounds of a repetition there is always a token left. -/
theorem exists_read_of_repeated {lower : Nat} (hs : s.Stands (.repeated lower)) :
    ∃ t s', s.read = .ok (some (t, s')) := by
  obtain ⟨upper, hp, -⟩ := hs.waits
  have hcontext : s.context = .expression := hs.context
  have hpop : s.expression.pending.pop? = some (.ofCount .repUpper upper, {}) := by rw [hp]; rfl
  have hread := ExpressionReader.read_eq_some_iff.mpr (.known (c := s.cursor) hpop)
  have hu := readInContext_eq_some_iff.mpr (.expression hcontext hread)
  exact ⟨_, _, read_eq_some_iff.mpr ⟨_, hu, rfl, rfl⟩⟩

end TokenReader
end IncrementalRegex
