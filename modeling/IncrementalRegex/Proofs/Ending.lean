import IncrementalRegex.Proofs.Phase
import Mathlib.Logic.Function.Iterate

namespace IncrementalRegex

namespace Queue

theorem isEmpty_iff {β : Type} {q : Queue β} : q.isEmpty ↔ q = {} := by
  obtain ⟨items⟩ := q
  cases items <;> simp [isEmpty]

end Queue

theorem Cursor.atEnd_iff {c : Cursor} : c.atEnd ↔ c.rest = [] := List.isEmpty_iff

/-- Where something always comes of something, nothing comes of nothing only. -/
theorem bind_eq_none_iff {ε β γ : Type} {x : Except ε (Option β)}
    {f : Option β → Except ε (Option γ)} (hnone : f none = .ok none)
    (hsome : ∀ a, f (some a) ≠ .ok none) : (x >>= f) = .ok none ↔ x = .ok none := by
  rw [bind_eq_ok]
  constructor
  · intro h
    obtain ⟨_ | a, hx, hf⟩ := h
    · exact hx
    · exact absurd hf (hsome a)
  · intro hx
    exact ⟨none, hx, hnone⟩

variable {d : Dialect} {c : Cursor}

theorem ExpressionReader.isEmpty_iff_read {r : ExpressionReader} :
    r.isEmpty c ↔ r.read c = .ok none := by
  rw [isEmpty, Bool.and_eq_true, Queue.isEmpty_iff, Cursor.atEnd_iff]
  exact ⟨fun h => read_of_rest_nil h.1 h.2, rest_of_read_none⟩

namespace BracketReader

variable {r : BracketReader}

theorem raw_eq_none_iff : r.raw d c = .ok none ↔ r.ahead = {} ∧ c.rest = [] := by
  rw [← Queue.pop_eq_none_iff]
  unfold raw
  cases r.ahead.pop? with
  | some p => simp
  | none =>
    have hread : (Lexicon.bracket d).read c = .ok none ↔ c.rest = [] :=
      ⟨Lexicon.rest_of_read_none rfl, Lexicon.read_of_rest_nil⟩
    rw [and_iff_right rfl, ← hread]
    exact bind_eq_none_iff rfl fun _ => nofun

theorem isEmpty_iff_read : r.isEmpty c ↔ r.read d c = .ok none := by
  rw [isEmpty, Bool.and_eq_true, Queue.isEmpty_iff, Cursor.atEnd_iff,
    ← raw_eq_none_iff (d := d)]
  refine Iff.symm (bind_eq_none_iff rfl fun u h => ?_)
  dsimp only at h
  split at h
  · obtain ⟨_ | p, -, h⟩ := bind_eq_ok.1 h <;> cases h
  · cases h

end BracketReader

namespace TokenReader

variable {s s' : TokenReader} {t : Token} {ph : Phase}

theorem read_eq_none_iff : s.read = .ok none ↔ s.readInContext = .ok none := by
  refine bind_eq_none_iff rfl fun p h => ?_
  dsimp only at h
  split at h <;> cases h

/-- Without tokens that were given back, no token is left just where none can be read. -/
theorem isEmpty_iff_read (hreturned : s.returned = {}) : s.isEmpty ↔ s.read = .ok none := by
  have hempty : s.returned.isEmpty := Queue.isEmpty_iff.mpr hreturned
  rw [isEmpty, hempty, Bool.true_and, read_eq_none_iff, readInContext]
  cases s.context with
  | expression =>
    dsimp only
    rw [ExpressionReader.isEmpty_iff_read]
    refine Iff.symm (bind_eq_none_iff rfl fun _ h => ?_)
    cases h
  | bracket =>
    dsimp only
    rw [@BracketReader.isEmpty_iff_read s.dialect]
    refine Iff.symm (bind_eq_none_iff rfl fun _ h => ?_)
    cases h
  | subexpression =>
    dsimp only
    rw [ExpressionReader.isEmpty_iff_read]
    constructor
    · intro h
      have hgroup := Lexicon.read_of_rest_nil (l := Lexicon.group s.dialect)
        (ExpressionReader.rest_of_read_none h).2
      exact bind_eq_ok.2 ⟨none, hgroup, bind_eq_ok.2 ⟨none, h, rfl⟩⟩
    · intro h
      obtain ⟨_ | p, -, h⟩ := bind_eq_ok.1 h
      · refine (bind_eq_none_iff ?_ fun _ h => ?_).mp h
        · rfl
        · cases h
      · cases h

namespace Gets

variable {x : Except PatternError (Option Token)}

theorem of_none (h : s.Gets x s') (hx : x = .ok none) :
    s.returned = {} ∧ s.read = .ok none ∧ s' = s := by
  cases h with
  | finish _ returned read => exact ⟨returned, read, rfl⟩
  | again | returned | token | fault => cases hx

/-- A fault that has been found stays. -/
theorem error_of_error (h : s.Gets x s') (herror : s'.error = none) : s.error = none := by
  cases h with
  | again error => exact herror
  | returned error | token error | finish error | fault error => exact error

theorem stands (h : s.Gets x s') (hs : s.Stands ph) (herror : s'.error = none) :
    ∃ ph', s'.Stands ph' := by
  cases h with
  | again | finish => exact ⟨ph, hs⟩
  | returned => exact ⟨ph, hs.context, hs.waits, hs.idle, hs.steady⟩
  | token _ _ read =>
    obtain ⟨ph', -, hs'⟩ := stands_of_read hs read
    exact ⟨ph', hs'⟩
  | fault => cases herror

end Gets

theorem isEmpty_iff_get (herror : s.error = none) : s.isEmpty ↔ s.get.1 = .ok none := by
  constructor
  · intro h
    have hreturned : s.returned = {} := by
      rw [isEmpty, Bool.and_eq_true] at h
      exact Queue.isEmpty_iff.mp h.1
    rw [get_eq hreturned herror, (isEmpty_iff_read hreturned).mp h]
  · intro h
    obtain ⟨hreturned, hread, -⟩ := s.gets.of_none h
    exact (isEmpty_iff_read hreturned).mpr hread

/-- Where there is no token to get, asking for one changes nothing. -/
theorem get_of_none (h : s.get.1 = .ok none) : s.get = (.ok none, s) :=
  Prod.ext h (s.gets.of_none h).2.2

/-- What becomes of the reader of a pattern when tokens are got and given back, in any number and
order. -/
inductive Reachable (flags : Flags) (pattern : String) : TokenReader → Prop where
  | start : Reachable flags pattern (ofPattern flags pattern)
  | get {s : TokenReader} (before : Reachable flags pattern s) : Reachable flags pattern s.get.2
  | giveBack {s : TokenReader} (before : Reachable flags pattern s) (t : Token) :
      Reachable flags pattern (s.giveBack t)

theorem Reachable.stands {flags : Flags} {pattern : String} (h : Reachable flags pattern s)
    (herror : s.error = none) : ∃ ph, s.Stands ph := by
  induction h with
  | start => exact ⟨.outside, stands_start ..⟩
  | get _ ih =>
    obtain ⟨ph, hs⟩ := ih ((gets _).error_of_error herror)
    exact (gets _).stands hs herror
  | giveBack _ t ih =>
    obtain ⟨ph, hs⟩ := ih herror
    exact ⟨ph, hs.context, hs.waits, hs.idle, hs.steady⟩

/-- As long as no fault has been found, a reader says that no token is left just when it gets none,
and then gets none again and again.  Of the two readers between which it switches, the one that is
not asked next holds nothing back: that of expressions inside a bracket and at the start of a group,
that of brackets outside of them. -/
theorem isEmpty_iff_of_reachable {flags : Flags} {pattern : String}
    (h : Reachable flags pattern s) (herror : s.error = none) :
    (s.isEmpty ↔ s.get.1 = .ok none) ∧
    (s.get.1 = .ok none → ∀ k, ((fun s => s.get.2)^[k] s).get.1 = .ok none) ∧
    (s.context = .bracket ∨ s.context = .subexpression → s.expression.pending = {}) ∧
    (s.context = .expression ∨ s.context = .subexpression →
      s.bracket.ahead = {} ∧ s.bracket.place = .start) := by
  obtain ⟨ph, hs⟩ := h.stands herror
  have hcontext := hs.context
  refine ⟨isEmpty_iff_get herror, fun hnone k => ?_, fun hplace => ?_, fun hplace => ?_⟩
  · have hfixed : (fun s : TokenReader => s.get.2) s = s := by
      simp only [get_of_none hnone]
    rwa [Function.iterate_fixed hfixed]
  · have hwaits := hs.waits
    cases ph with
    | opened | inside => exact hwaits
    | outside | repeated => simp [hcontext, Phase.context] at hplace
  · have hbracket : s.bracket = {} := by
      apply hs.idle
      rw [← hcontext]
      rcases hplace with hplace | hplace <;> simp [hplace]
    rw [hbracket]
    exact ⟨rfl, rfl⟩

/-- After a dash the text is at its end, but the character that was read to know the dash is still
to be got. -/
theorem ends_after_dash :
    let s := (ofPattern [] "[a-z").get.2.get.2.get.2
    s.cursor.rest = [] ∧ s.get.1 ≠ .ok none ∧ ¬ s.isEmpty ∧
      ∀ k, ((fun s => s.get.2)^[k] s.get.2).get.1 = .ok none := by
  intro s
  have hs : Reachable [] "[a-z" s := .get (.get (.get .start))
  have hget : s.get.1 ≠ .ok none := by decide
  refine ⟨by decide, hget, fun hempty => ?_, ?_⟩
  · exact hget ((isEmpty_iff_of_reachable hs (by decide)).1.mp hempty)
  · exact (isEmpty_iff_of_reachable hs.get (by decide)).2.1 (by decide)

end TokenReader
end IncrementalRegex
