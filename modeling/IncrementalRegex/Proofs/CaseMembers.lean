import IncrementalRegex.Proofs.Brackets
import IncrementalRegex.Proofs.CaseVariants
import IncrementalRegex.Regex

namespace IncrementalRegex

namespace Unicode

/-- The code points of a run, one by one. -/
def Run.points (r : Run) : List Nat :=
  (List.range ((r.last - r.first) / r.step + 1)).map fun k => r.first + r.step * k

theorem Run.mem_points {r : Run} {n : Nat} (h : r.contains n) : n ∈ r.points := by
  obtain ⟨hfirst, hlast, hstep⟩ := contains_iff.mp h
  refine List.mem_map.mpr ⟨(n - r.first) / r.step, List.mem_range.mpr ?_, ?_⟩
  · have hle : (n - r.first) / r.step ≤ (r.last - r.first) / r.step :=
      Nat.div_le_div_right (Nat.sub_le_sub_right hlast _)
    omega
  · rw [Nat.mul_div_cancel' (Nat.dvd_of_mod_eq_zero hstep)]
    omega

/-- The number with these bits. -/
def mask (ns : List Nat) : Nat := ns.foldr (fun n bits => 2 ^ n ||| bits) 0

theorem testBit_mask {ns : List Nat} {n : Nat} (h : n ∈ ns) : (mask ns).testBit n := by
  induction ns with
  | nil => cases h
  | cons m ns ih =>
    rw [mask, List.foldr_cons, Nat.testBit_or, Bool.or_eq_true]
    rcases List.mem_cons.mp h with rfl | h
    · exact .inl Nat.testBit_two_pow_self
    · exact .inr (ih h)

/-- Where the upper case mapping moves something to, nothing is moved.  The table is compared with
itself all at once, in numbers that have a bit for each code point. -/
theorem mask_upperRuns : mask (upperRuns.flatMap (·.image.points)) &&&
    mask (upperRuns.flatMap (·.run.points)) = 0 := by
  decide +kernel

theorem not_contains_of_image {r a : CaseRun} {n : Nat} (hr : r ∈ upperRuns) (ha : a ∈ upperRuns)
    (hn : r.image.contains n) : ¬ a.run.contains n := by
  intro h
  have himage : n ∈ upperRuns.flatMap (·.image.points) :=
    List.mem_flatMap.mpr ⟨r, hr, Run.mem_points hn⟩
  have hrun : n ∈ upperRuns.flatMap (·.run.points) :=
    List.mem_flatMap.mpr ⟨a, ha, Run.mem_points h⟩
  have hboth := congrArg (Nat.testBit · n) mask_upperRuns
  simp [Nat.testBit_and, testBit_mask himage, testBit_mask hrun] at hboth

end Unicode

open Unicode

theorem foldCase_foldCase (c : Char) : foldCase (foldCase c) = foldCase c := by
  by_cases hfold : foldCase c = c
  · rw [hfold, hfold]
  by_contra hagain
  obtain ⟨r, hr, hcontains, hmoved⟩ := exists_run_of_foldCase hfold
  obtain ⟨a, ha, hcontains', -⟩ := exists_run_of_foldCase hagain
  obtain ⟨hoffset, hwithin⟩ := image_of_upperRuns r hr
  have himage := CaseRun.contains_image hoffset hcontains
  obtain ⟨letters, hletters, hletter⟩ := Run.exists_contains_of_isWithin hwithin himage
  rw [hmoved, toNat_ofNat hletters hletter] at hcontains'
  exact not_contains_of_image hr ha himage hcontains'

/-- What has been folded is its own upper case form, if that is a single character. -/
theorem eq_foldCase_of_toUpper {c u : Char} (h : toUpper (foldCase c) = [u]) : u = foldCase c := by
  have hfold : foldCase (foldCase c) = u := by rw [foldCase, h]
  rw [← hfold, foldCase_foldCase]

theorem eq_singleton_or_length {form : List Char} {c : Char} (h : c ∈ form) :
    form = [c] ∨ 1 < form.length := by
  match form with
  | [] => cases h
  | [x] => exact .inl (by rw [List.mem_singleton.mp h])
  | x :: y :: form => exact .inr (by simp)

namespace BracketList

variable {cs : List Char}

/-- A list of characters that stand for themselves. -/
def ofChars (cs : List Char) (hne : cs ≠ []) (h : ∀ c ∈ cs, c ∉ [']', '[', '^', '-', '\\']) :
    BracketList where
  negated := false
  leading := none
  items := cs.attach.map fun c => .mark (.plain c.1 (h c.1 c.2))
  trailing := false
  nonempty := .inr (.inl (by simpa using hne))

theorem spell_ofChars (hne : cs ≠ []) (h : ∀ c ∈ cs, c ∉ [']', '[', '^', '-', '\\']) :
    (ofChars cs hne h).spell = '[' :: (cs ++ [']']) := by
  have hitems : (ofChars cs hne h).items.flatMap BracketItem.spell = cs := by
    rw [ofChars, List.flatMap_map]
    change cs.attach.flatMap (fun c => [c.1]) = cs
    rw [← List.map_eq_flatMap, List.attach_map_subtype_val]
  rw [spell, hitems]
  rfl

theorem lists_ofChars (hne : cs ≠ []) (h : ∀ c ∈ cs, c ∉ [']', '[', '^', '-', '\\']) (d : Char) :
    (ofChars cs hne h).Lists d ↔ d ∈ cs := by
  simp [ofChars, Lists, BracketItem.Lists, BracketMark.char]

end BracketList

namespace Regex

variable {flags : Flags} {cs : List Char}

/-- Without regard to case, a listed character is matched by the characters that it is a variant
of. -/
theorem exists_ofChars (hcase : .icase ∈ flags) (hne : cs ≠ [])
    (hplain : ∀ c ∈ cs, c ∉ [']', '[', '^', '-', '\\']) :
    ∃ r, ofPattern flags (String.ofList ('[' :: (cs ++ [']']))) = .ok r ∧ ∀ d, r.isMatch [d] ↔
      ∃ c ∈ cs, c = foldCase d ∨ c ∈ toLower (foldCase d) ++ toUpper (foldCase d) := by
  let b := BracketList.ofChars cs hne hplain
  obtain ⟨s, hignore, hnegated, hlists, hm⟩ := compile_inSet flags b 0
  rw [BracketList.spell_ofChars] at hm
  have hfold : flags.contains .icase = true := by simpa using hcase
  have hmember (d : Char) : s.lists d ↔ d ∈ cs := (hlists d).trans (BracketList.lists_ofChars ..)
  refine ⟨_, map_eq_ok.mpr ⟨_, hm, rfl⟩, fun d => ?_⟩
  rw [isMatch, accepts_inSet]
  simp only [List.map_cons, List.map_nil, List.cons.injEq, and_true, exists_eq_left', seen, hfold,
    foldIf_true]
  rw [CharSet.contains_iff_of_ignoreCase (hignore.trans hfold) hnegated]
  simp only [hmember]
  constructor
  · intro h
    rcases h with h | ⟨v, hv, -, h⟩
    · exact ⟨_, h, .inl rfl⟩
    · exact ⟨v, h, .inr hv⟩
  · intro h
    obtain ⟨c, hc, rfl | hv⟩ := h
    · exact .inl hc
    · by_cases hsame : c = foldCase d
      · exact .inl (hsame ▸ hc)
      · exact .inr ⟨c, hv, hsame, hc⟩

/-- Without regard to case, a list of characters matches one that is folded as one of them is, and
one that has one of them as its lower case form.  Forms of several characters are taken apart, and
what comes of that is left open here. -/
theorem isMatch_ofChars (flags : Flags) (cs : List Char) (hcase : .icase ∈ flags) (hne : cs ≠ [])
    (hplain : ∀ c ∈ cs, c ∉ [']', '[', '^', '-', '\\']) :
    ∃ r, ofPattern flags (String.ofList ('[' :: (cs ++ [']']))) = .ok r ∧ ∀ d,
      (r.isMatch [d] → ∃ c ∈ cs, foldCase d = foldCase c ∨ toLower (foldCase d) = [c] ∨
        ∃ form ∈ [toLower (foldCase d), toUpper (foldCase d)], 1 < form.length ∧ c ∈ form) ∧
      ((∃ c ∈ cs, c = foldCase d ∨ toLower (foldCase d) = [c]) → r.isMatch [d]) := by
  obtain ⟨r, hr, hmatch⟩ := exists_ofChars hcase hne hplain
  refine ⟨r, hr, fun d => ⟨fun h => ?_, fun h => ?_⟩⟩
  · obtain ⟨c, hc, hvariant⟩ := (hmatch d).mp h
    rw [List.mem_append] at hvariant
    rcases hvariant with rfl | hlower | hupper
    · exact ⟨_, hc, .inl (foldCase_foldCase d).symm⟩
    · rcases eq_singleton_or_length hlower with hsingle | hlong
      · exact ⟨c, hc, .inr (.inl hsingle)⟩
      · exact ⟨c, hc, .inr (.inr ⟨_, by simp, hlong, hlower⟩)⟩
    · rcases eq_singleton_or_length hupper with hsingle | hlong
      · obtain rfl := eq_foldCase_of_toUpper hsingle
        exact ⟨_, hc, .inl (foldCase_foldCase d).symm⟩
      · exact ⟨c, hc, .inr (.inr ⟨_, by simp, hlong, hupper⟩)⟩
  · obtain ⟨c, hc, rfl | hlower⟩ := h
    · exact (hmatch d).mpr ⟨_, hc, .inl rfl⟩
    · exact (hmatch d).mpr ⟨c, hc, .inr (by simp [hlower])⟩

/-- A small letter is a variant of the sign that has it as its lower case form, and of the capital
letter that it is folded to. -/
theorem isMatch_kelvin :
    ∃ r, ofPattern [.extended, .icase] (String.ofList ('[' :: (['k'] ++ [']']))) = .ok r ∧
      r.isMatch ['\u212a'] ∧ r.isMatch ['K'] ∧ ¬ r.isMatch ['l'] := by
  obtain ⟨r, hr, hmatch⟩ := isMatch_ofChars [.extended, .icase] ['k'] (by decide)
    (List.cons_ne_nil _ _) (by simp)
  refine ⟨r, hr, (hmatch _).2 ?_, (hmatch _).2 ?_, fun hl => ?_⟩
  · exact ⟨'k', List.mem_singleton_self _, by decide +kernel⟩
  · exact ⟨'k', List.mem_singleton_self _, by decide +kernel⟩
  · obtain ⟨c, hc, h⟩ := (hmatch _).1 hl
    rw [List.mem_singleton.mp hc] at h
    exact absurd h (by decide +kernel)

/-- The sign for a kelvin is a capital letter, and its lower case form is an ordinary small one.
The small letter is folded to the ordinary capital letter, and the sign is folded to nothing else.
-/
theorem not_foldCase_kelvin : ¬ ∀ flags cs, .icase ∈ flags → cs ≠ [] →
    (∀ c ∈ cs, c ∉ [']', '[', '^', '-', '\\']) →
    ∀ r, ofPattern flags (String.ofList ('[' :: (cs ++ [']']))) = .ok r →
      ∀ d, r.isMatch [d] → ∃ c ∈ cs, foldCase d = foldCase c := by
  intro h
  have hcase : Flag.icase ∈ [Flag.extended, .icase] := by decide
  have hplain : ∀ c ∈ ['k'], c ∉ [']', '[', '^', '-', '\\'] := by simp
  obtain ⟨r, hr, hmatch⟩ := exists_ofChars hcase (List.cons_ne_nil _ _) hplain
  have hlower : 'k' ∈ toLower (foldCase '\u212a') ++ toUpper (foldCase '\u212a') := by
    decide +kernel
  have hsign : r.isMatch ['\u212a'] :=
    (hmatch _).mpr ⟨'k', List.mem_singleton_self _, .inr hlower⟩
  obtain ⟨c, hc, hfold⟩ := h _ _ hcase (List.cons_ne_nil _ _) hplain r hr _ hsign
  rw [List.mem_singleton.mp hc] at hfold
  exact absurd hfold (by decide +kernel)

end Regex
end IncrementalRegex
