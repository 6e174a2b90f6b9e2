import IncrementalRegex.CaseFold
import IncrementalRegex.Pattern.Basic
import Mathlib.Tactic.ByContra
import Mathlib.Tactic.SplitIfs

namespace IncrementalRegex

namespace Unicode

namespace Run

theorem contains_iff {r : Run} {n : Nat} :
    r.contains n ↔ r.first ≤ n ∧ n ≤ r.last ∧ (n - r.first) % r.step = 0 := by
  simp [contains, and_assoc]

/-- Whether some run of a table holds all of `r`, or else several of them together do. -/
def isWithin (r : Run) (runs : List Run) : Bool :=
  runs.any (fun a => r.last.ble a.last && a.first.ble r.first && a.step.beq 1) ||
    (List.range (r.last + 1 - r.first)).all fun i =>
      i % r.step != 0 || runs.any (·.contains (r.first + i))

theorem exists_contains_of_isWithin {r : Run} {runs : List Run} {n : Nat} (h : r.isWithin runs)
    (hn : r.contains n) : ∃ a ∈ runs, a.contains n := by
  obtain ⟨hfirst, hlast, hstep⟩ := contains_iff.mp hn
  rcases Bool.or_eq_true_iff.mp h with h | h
  · obtain ⟨a, ha, hcovers⟩ := List.any_eq_true.mp h
    simp only [Bool.and_eq_true, Nat.ble_eq, Nat.beq_eq] at hcovers
    obtain ⟨⟨hupper, hlower⟩, hone⟩ := hcovers
    refine ⟨a, ha, contains_iff.mpr ⟨by omega, by omega, ?_⟩⟩
    rw [hone, Nat.mod_one]
  · have hmember := List.all_eq_true.mp h (n - r.first) (List.mem_range.mpr (by omega))
    have hn : r.first + (n - r.first) = n := by omega
    rw [hstep, hn] at hmember
    exact List.any_eq_true.mp (by simpa using hmember)

/-- Whether two runs have no code point between their ends in common. -/
def isApart (r a : Run) : Bool := r.last < a.first || a.last < r.first

theorem not_contains_of_isApart {r a : Run} {n : Nat} (h : r.isApart a) (hn : a.contains n) :
    ¬ r.contains n := by
  intro hr
  obtain ⟨_, _, -⟩ := contains_iff.mp hn
  obtain ⟨_, _, -⟩ := contains_iff.mp hr
  simp only [isApart, Bool.or_eq_true, decide_eq_true_eq] at h
  omega

end Run

/-- The code points that a run is moved to. -/
def CaseRun.image (r : CaseRun) : Run :=
  ⟨(r.run.first + r.offset).toNat, (r.run.last + r.offset).toNat, r.run.step⟩

theorem CaseRun.contains_image {r : CaseRun} {n : Nat} (h : 0 ≤ r.run.first + r.offset)
    (hn : r.run.contains n) : r.image.contains (n + r.offset).toNat := by
  obtain ⟨hfirst, hlast, hstep⟩ := Run.contains_iff.mp hn
  have hdistance : (n + r.offset).toNat - (r.run.first + r.offset).toNat = n - r.run.first := by
    omega
  refine Run.contains_iff.mpr ⟨?_, ?_, ?_⟩
  · simp only [image]
    omega
  · simp only [image]
    omega
  · simp only [image]
    rw [hdistance, hstep]

/-- No upper case form that is a sequence is a single character. -/
theorem length_of_upperSequences : ∀ p ∈ upperSequences, p.2.length ≠ 1 := by decide

/-- The moves of the upper case mapping end at letters. -/
theorem image_of_upperRuns : ∀ r ∈ upperRuns,
    0 ≤ r.run.first + r.offset ∧ r.image.isWithin alphabeticRuns := by
  decide +kernel

/-- All letters are characters. -/
theorem valid_of_alphabeticRuns : ∀ a ∈ alphabeticRuns,
    a.last < 0xD800 ∨ (0xDFFF < a.first ∧ a.last < 0x110000) := by
  decide +kernel

/-- No white space and no digit is moved. -/
theorem apart_of_upperRuns : ∀ r ∈ upperRuns, ∀ a ∈ ⟨0x30, 0x39, 1⟩ :: whitespaceRuns,
    r.run.isApart a := by
  decide +kernel

/-- A single upper case form other than the character itself comes of a move. -/
theorem eq_or_of_toUpper {c u : Char} (h : toUpper c = [u]) : u = c ∨
    ∃ r ∈ upperRuns, r.run.contains c.toNat ∧ u = Char.ofNat (c.toNat + r.offset).toNat := by
  unfold toUpper mapCase at h
  cases hlookup : upperSequences.lookup c.toNat with
  | some image =>
    rw [hlookup] at h
    have hlength : image.length = 1 := by simpa using congrArg List.length h
    obtain ⟨before, after, heq, -⟩ := List.lookup_eq_some_iff.mp hlookup
    have hmem : (c.toNat, image) ∈ upperSequences := by simp [heq]
    exact absurd hlength (length_of_upperSequences _ hmem)
  | none =>
    rw [hlookup] at h
    cases hfind : upperRuns.find? (·.run.contains c.toNat) with
    | some r =>
      rw [hfind] at h
      exact .inr ⟨r, List.mem_of_find?_eq_some hfind, by simpa using List.find?_some hfind, by
        simpa using h.symm⟩
    | none =>
      rw [hfind] at h
      exact .inl (by simpa using h.symm)

theorem toNat_ofNat {a : Run} {n : Nat} (ha : a ∈ alphabeticRuns) (hn : a.contains n) :
    (Char.ofNat n).toNat = n := by
  have hvalid := valid_of_alphabeticRuns a ha
  obtain ⟨_, _, -⟩ := Run.contains_iff.mp hn
  have hn : n.isValidChar := by
    unfold Nat.isValidChar
    omega
  rw [Char.ofNat, dif_pos hn]
  rfl

end Unicode

open Unicode

variable {c : Char}

/-- What is moved by folding is moved by a run of the upper case mapping. -/
theorem exists_run_of_foldCase (h : foldCase c ≠ c) : ∃ r ∈ upperRuns,
    r.run.contains c.toNat ∧ foldCase c = Char.ofNat (c.toNat + r.offset).toNat := by
  unfold foldCase at h ⊢
  split at h
  next u hu => exact (eq_or_of_toUpper hu).resolve_left h
  next => contradiction

theorem isAlphabetic_foldCase (h : foldCase c ≠ c) : isAlphabetic (foldCase c) := by
  obtain ⟨r, hr, hcontains, hfold⟩ := exists_run_of_foldCase h
  obtain ⟨hoffset, hwithin⟩ := image_of_upperRuns r hr
  obtain ⟨a, ha, himage⟩ :=
    Run.exists_contains_of_isWithin hwithin (CaseRun.contains_image hoffset hcontains)
  rw [isAlphabetic, inRuns, List.any_eq_true]
  refine ⟨a, ha, ?_⟩
  rw [hfold, toNat_ofNat ha himage]
  exact himage

theorem foldCase_eq_of_contains {a : Run} (ha : a ∈ ⟨0x30, 0x39, 1⟩ :: whitespaceRuns)
    (hc : a.contains c.toNat) : foldCase c = c := by
  by_contra h
  obtain ⟨r, hr, hcontains, -⟩ := exists_run_of_foldCase h
  exact Run.not_contains_of_isApart (apart_of_upperRuns r hr a ha) hc hcontains

theorem foldCase_of_isWhitespace (h : isWhitespace c) : foldCase c = c := by
  obtain ⟨a, ha, hc⟩ := List.any_eq_true.mp h
  exact foldCase_eq_of_contains (List.mem_cons_of_mem _ ha) hc

theorem foldCase_of_isDigit (h : c.isDigit) : foldCase c = c := by
  refine foldCase_eq_of_contains List.mem_cons_self (Run.contains_iff.mpr ?_)
  simp only [Char.isDigit, Bool.and_eq_true, decide_eq_true_eq] at h
  refine ⟨h.1, h.2, Nat.mod_one _⟩

/-- Folding leads to no line end, which is no letter. -/
theorem isLineEnd_foldCase (h : isLineEnd c = false) : isLineEnd (foldCase c) = false := by
  have hletters : isAlphabetic '\n' = false ∧ isAlphabetic '\r' = false ∧
      isAlphabetic '\u2028' = false ∧ isAlphabetic '\u2029' = false := by
    decide +kernel
  by_cases hfold : foldCase c = c
  · rwa [hfold]
  · have hletter := isAlphabetic_foldCase hfold
    simp only [isLineEnd, Bool.or_eq_false_iff, decide_eq_false_iff_not]
    refine ⟨⟨⟨?_, ?_⟩, ?_⟩, ?_⟩ <;> intro he <;> rw [he] at hletter <;> simp_all

/-- A class of an escape letter holds with a character what that is folded to. -/
theorem CharClass.contains_foldCase {letter : Char} {k : CharClass} {outside : Bool}
    (hk : ofEscape? letter = some (k, outside)) (h : k.contains c) : k.contains (foldCase c) := by
  by_cases hfold : foldCase c = c
  · rwa [hfold]
  · have hclass : k = .digit ∨ k = .space ∨ k = .word := by
      unfold ofEscape? at hk
      split at hk <;> cases hk <;> simp
    rcases hclass with rfl | rfl | rfl
    · exact absurd (foldCase_of_isDigit h) hfold
    · exact absurd (foldCase_of_isWhitespace h) hfold
    · simp [contains, isAlphanumeric, isAlphabetic_foldCase hfold]

/-- A character that a set which ignores case finds when it sees what the character is folded to. -/
def Recoverable (c : Char) : Prop :=
  foldCase c = c ∨ c ∈ toLower (foldCase c) ++ toUpper (foldCase c)

instance : DecidablePred Recoverable := fun c =>
  inferInstanceAs (Decidable (foldCase c = c ∨ c ∈ toLower (foldCase c) ++ toUpper (foldCase c)))

namespace CharSet

variable {s : CharSet}

theorem contains_iff_of_ignoreCase (hs : s.ignoreCase = true) (hn : s.negated = false) :
    s.contains c ↔ s.lists c ∨ ∃ v ∈ toLower c ++ toUpper c, v ≠ c ∧ s.lists v := by
  simp only [contains, hs, hn, Bool.true_and, Bool.bne_false, Bool.or_eq_true, List.any_eq_true,
    Bool.and_eq_true, bne_iff_ne]

def ignoringCase (s : CharSet) : CharSet := { s with ignoreCase := true }

theorem contains_foldCase (hs : s.ignoreCase = false) (hn : s.negated = false) (hc : Recoverable c)
    (h : s.contains c) : s.ignoringCase.contains (foldCase c) := by
  have hlists : s.lists c := by simpa [contains, hs, hn] using h
  have hpositive : s.ignoringCase.negated = false := hn
  rw [contains_iff_of_ignoreCase rfl hpositive]
  by_cases hfold : foldCase c = c
  · left
    rwa [hfold]
  · right
    exact ⟨c, hc.resolve_left hfold, Ne.symm hfold, hlists⟩

/-- A set of one member finds that when it sees what it is folded to, if it can be found at all. -/
theorem contains_foldCase_iff (hs : s.ignoreCase = true) (hn : s.negated = false)
    (hl : ∀ e, s.lists e ↔ e = c) : s.contains (foldCase c) ↔ Recoverable c := by
  rw [contains_iff_of_ignoreCase hs hn, Recoverable, hl]
  by_cases hfold : foldCase c = c
  · simp [hfold]
  · simp [hl, hfold, Ne.symm hfold]

end CharSet

end IncrementalRegex
