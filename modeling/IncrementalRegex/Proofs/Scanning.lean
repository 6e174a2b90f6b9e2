import IncrementalRegex.Proofs.Onward
import Mathlib.Data.Nat.Digits.Defs

namespace IncrementalRegex

def isDigitIn (radix : Nat) (x : Char) : Bool := (digitValue? radix x).isSome

/-- What a digit counts for; a character that is none counts for nothing. -/
def digitWorth (radix : Nat) (x : Char) : Nat := (digitValue? radix x).getD 0

/-- The number that a numeral stands for: each place counts `radix` times the place behind it. -/
def numeralValue (radix : Nat) (digits : List Char) : Nat :=
  Nat.ofDigits radix (digits.reverse.map (digitWorth radix))

variable {radix : Nat}

theorem ofDigits_map_digitWorth (radix : Nat) (digits : List Char) :
    ofDigits radix (digits.map (digitWorth radix)) = numeralValue radix digits := by
  have hplace : (fun n d => n * radix + d) = fun n d : Nat => (d : Nat) + radix * n := by
    funext n d
    rw [Nat.add_comm, Nat.mul_comm]
  rw [numeralValue, Nat.ofDigits_eq_foldr, List.map_reverse, List.foldr_reverse, ofDigits, hplace]
  rfl

theorem spanDigits_eq (text : List Char) :
    (spanDigits radix text).1 = (text.takeWhile (isDigitIn radix)).map (digitWorth radix) := by
  induction text with
  | nil => rfl
  | cons x text ih =>
    rw [spanDigits]
    cases hx : digitValue? radix x with
    | none => simp [isDigitIn, hx]
    | some d => simp [isDigitIn, digitWorth, hx, ih]

theorem filterMap_digitValue {digits : List Char} (h : ∀ x ∈ digits, isDigitIn radix x) :
    digits.filterMap (digitValue? radix) = digits.map (digitWorth radix) := by
  induction digits with
  | nil => rfl
  | cons x digits ih =>
    obtain ⟨hx, hdigits⟩ := List.forall_mem_cons.mp h
    obtain ⟨d, hd⟩ := Option.isSome_iff_exists.mp hx
    rw [List.filterMap_cons_some hd, ih hdigits, List.map_cons, digitWorth, hd]
    rfl

/-- A number with one more digit, where no step goes beyond `limit`. -/
def saturate (limit radix n d : Nat) : Nat := min (min (n * radix) limit + d) limit

/-- To stop at the limit on the way or only at the end makes no difference. -/
theorem saturate_min (limit n d : Nat) :
    saturate limit radix (min n limit) d = min (n * radix + d) limit := by
  unfold saturate
  rcases Nat.le_total n limit with hle | hle
  · rw [Nat.min_eq_left hle]
    omega
  · rw [Nat.min_eq_right hle]
    rcases Nat.eq_zero_or_pos radix with rfl | hradix
    · simp
    · have hlimit : limit ≤ limit * radix := Nat.le_mul_of_pos_right limit hradix
      have hn : limit * radix ≤ n * radix := Nat.mul_le_mul_right radix hle
      omega

namespace Cursor

/-- The digits from here on taken one by one into a number, up to what is no digit. -/
def takeDigits (radix : Nat) (value : Option Nat) (before : List Char) :
    List Char → Option Nat × Cursor
  | [] => (value, ⟨before, []⟩)
  | x :: rest =>
    match digitValue? radix x with
    | some d =>
      takeDigits radix (some (saturate largestCount radix (value.getD 0) d)) (x :: before) rest
    | none => (value, ⟨before, x :: rest⟩)

/-- So many digits taken one by one into a number.  The character that is no digit is gone when it
turns out to be none. -/
def takeExactly (radix value : Nat) : Nat → Cursor → Option Nat × Cursor
  | 0, c => (some value, c)
  | n + 1, c =>
    match c.next? with
    | none => (none, c)
    | some (x, next) =>
      match digitValue? radix x with
      | some d => takeExactly radix (saturate largestCode radix value d) n next
      | none => (none, next)

/-- Reads a number digit by digit. -/
def readNumber (c : Cursor) (radix : Nat) : Option Nat × Cursor :=
  takeDigits radix none c.before c.rest

/-- Reads a number of `n` digits digit by digit, and goes back to where it began if there are not so
many. -/
def readDigits (c : Cursor) (n radix : Nat) : Option Nat × Cursor :=
  match takeExactly radix 0 n c with
  | (some value, place) => (some value, place)
  | (none, place) => (none, place.seek c.position)

/-- What has been read and where that ends; where nothing is read the place stays. -/
def orStay (c : Cursor) : Option (Nat × Cursor) → Option Nat × Cursor
  | some (value, place) => (some value, place)
  | none => (none, c)

variable {c c' : Cursor}

theorem takeDigits_eq (value : Option Nat) {n : Nat} (hvalue : value.getD 0 = min n largestCount)
    (before text : List Char) :
    takeDigits radix value before text =
      (if text.takeWhile (isDigitIn radix) = [] then value
        else some (min ((spanDigits radix text).1.foldl (fun n d => n * radix + d) n) largestCount),
        ⟨(text.takeWhile (isDigitIn radix)).reverse ++ before,
          text.dropWhile (isDigitIn radix)⟩) := by
  induction text generalizing value n before with
  | nil => rfl
  | cons x text ih =>
    rw [takeDigits, spanDigits]
    cases hx : digitValue? radix x with
    | none =>
      have hdigit : isDigitIn radix x = false := by rw [isDigitIn, hx]; rfl
      simp [hdigit]
    | some d =>
      have hdigit : isDigitIn radix x = true := by rw [isDigitIn, hx]; rfl
      dsimp only
      rw [hvalue, saturate_min, ih (some _) rfl]
      rw [List.takeWhile_cons_of_pos hdigit, List.dropWhile_cons_of_pos hdigit, List.foldl_cons,
        if_neg (List.cons_ne_nil _ _), List.reverse_cons, List.append_assoc, spanDigits_eq]
      split_ifs with hnil
      · rw [hnil]; rfl
      · rfl

theorem advance_of_append {span later : List Char} (h : c.rest = span ++ later) :
    c.advance span.length = ⟨span.reverse ++ c.before, later⟩ := by
  rw [advance, h, List.take_left' rfl, List.drop_left' rfl]

theorem number_eq (c : Cursor) (radix : Nat) :
    c.number? radix =
      let digits := c.rest.takeWhile (isDigitIn radix)
      if digits = [] then none
      else some (min (numeralValue radix digits) largestCount,
        ⟨digits.reverse ++ c.before, c.rest.dropWhile (isDigitIn radix)⟩) := by
  have hadvance := advance_of_append (List.takeWhile_append_dropWhile
    (p := isDigitIn radix) (l := c.rest)).symm
  have hvalue := ofDigits_map_digitWorth radix (c.rest.takeWhile (isDigitIn radix))
  rw [← spanDigits_eq] at hvalue
  rw [← List.length_map (digitWorth radix), ← spanDigits_eq] at hadvance
  have hnil : c.rest.takeWhile (isDigitIn radix) = [] ↔ (spanDigits radix c.rest).1 = [] := by
    rw [spanDigits_eq, List.map_eq_nil_iff]
  dsimp only
  rw [number?, ← hadvance, ← hvalue]
  simp only [hnil]
  cases (spanDigits radix c.rest).1 with
  | nil => rfl
  | cons d ds => rfl

/-- Digit by digit the same number is read as at once. -/
theorem readNumber_eq (c : Cursor) (radix : Nat) :
    c.readNumber radix = c.orStay (c.number? radix) := by
  have hsplit := List.takeWhile_append_dropWhile (p := isDigitIn radix) (l := c.rest)
  have hvalue := ofDigits_map_digitWorth radix (c.rest.takeWhile (isDigitIn radix))
  rw [← spanDigits_eq, ofDigits] at hvalue
  rw [readNumber, takeDigits_eq none (n := 0) rfl, number_eq, hvalue]
  dsimp only
  split_ifs with hnil
  · rw [hnil, List.nil_append] at hsplit
    rw [hnil, hsplit]
    rfl
  · rfl

/-- The whole text that a place is in. -/
def text (c : Cursor) : List Char := c.before.reverse ++ c.rest

theorem text_advance (c : Cursor) (n : Nat) : (c.advance n).text = c.text := by
  simp only [text, advance, List.reverse_append, List.reverse_reverse, List.append_assoc,
    List.take_append_drop]

theorem Onward.text_eq (h : c.Onward c') : c'.text = c.text := by
  obtain ⟨n, rfl⟩ := h
  exact text_advance c n

/-- From further on, it is possible to go back to an earlier place. -/
theorem Onward.seek (h : c.Onward c') : c'.seek c.position = c := by
  have htext : (start c.text).rest = c.before.reverse ++ c.rest := rfl
  have hadvance := advance_of_append htext
  rw [List.length_reverse, List.reverse_reverse, start, List.append_nil] at hadvance
  have hseek : c'.seek c.position = (start c'.text).advance c.before.length := rfl
  rw [hseek, h.text_eq]
  exact hadvance

/-- What is left when a number is not to be had is further on in the same text. -/
theorem takeExactly_eq (radix n m : Nat) (c : Cursor) :
    (n ≤ c.rest.length ∧ (c.rest.take n).all (isDigitIn radix)) ∧
        takeExactly radix (min m largestCode) n c =
          (some (min (((c.rest.take n).map (digitWorth radix)).foldl
            (fun n d => n * radix + d) m) largestCode), c.advance n) ∨
      ¬ (n ≤ c.rest.length ∧ (c.rest.take n).all (isDigitIn radix)) ∧
        ∃ c', c.Onward c' ∧ takeExactly radix (min m largestCode) n c = (none, c') := by
  induction n generalizing m c with
  | zero => exact .inl ⟨⟨Nat.zero_le _, rfl⟩, rfl⟩
  | succ n ih =>
    obtain ⟨before, rest⟩ := c
    cases rest with
    | nil => exact .inr ⟨fun h => Nat.not_succ_le_zero n h.1, _, .refl _, rfl⟩
    | cons x rest =>
      have honward : Onward ⟨before, x :: rest⟩ ⟨x :: before, rest⟩ := onward_next rfl
      have hall : (n + 1 ≤ (x :: rest).length ∧
            ((x :: rest).take (n + 1)).all (isDigitIn radix)) ↔
          isDigitIn radix x ∧ n ≤ rest.length ∧ (rest.take n).all (isDigitIn radix) := by
        rw [List.take_succ_cons, List.all_cons, Bool.and_eq_true, List.length_cons,
          Nat.succ_le_succ_iff]
        exact and_left_comm
      simp only [hall]
      cases hx : digitValue? radix x with
      | none =>
        have hdigit : isDigitIn radix x = false := by rw [isDigitIn, hx]; rfl
        refine .inr ⟨fun h => ?_, _, honward, ?_⟩
        · rw [hdigit] at h
          cases h.1
        · simp only [takeExactly, next?, hx]
      | some d =>
        have hdigit : isDigitIn radix x = true := by rw [isDigitIn, hx]; rfl
        have hworth : digitWorth radix x = d := by rw [digitWorth, hx]; rfl
        have hstep : takeExactly radix (min m largestCode) (n + 1) ⟨before, x :: rest⟩ =
            takeExactly radix (min (m * radix + d) largestCode) n ⟨x :: before, rest⟩ := by
          simp only [takeExactly, next?, hx, saturate_min]
        rw [hstep]
        rcases ih (m * radix + d) ⟨x :: before, rest⟩ with
          ⟨hlater, heq⟩ | ⟨hlater, c', hc', heq⟩
        · refine .inl ⟨⟨hdigit, hlater⟩, ?_⟩
          rw [heq]
          simp [advance, hworth]
        · exact .inr ⟨fun h => hlater h.2, c', honward.trans hc', heq⟩

theorem digits_eq (c : Cursor) (n radix : Nat) :
    c.digits? n radix =
      if n ≤ c.rest.length ∧ (c.rest.take n).all (isDigitIn radix) then
        some (min (numeralValue radix (c.rest.take n)) largestCode, c.advance n)
      else none := by
  have hlength : ((c.rest.take n).filterMap (digitValue? radix)).length = n ↔
      n ≤ c.rest.length ∧ (c.rest.take n).all (isDigitIn radix) := by
    rw [List.all_eq_true]
    have hle := List.length_filterMap_le (digitValue? radix) (c.rest.take n)
    have htake := List.length_take (i := n) (l := c.rest)
    have hall := List.filterMap_length_eq_length (f := digitValue? radix) (l := c.rest.take n)
    constructor
    · intro h
      have hn : n ≤ c.rest.length := by omega
      exact ⟨hn, hall.mp (by omega)⟩
    · intro hm
      obtain ⟨hn, hdigits⟩ := hm
      have heq := hall.mpr hdigits
      omega
  rw [digits?]
  simp only [hlength]
  split_ifs with h
  · rw [filterMap_digitValue (List.all_eq_true.mp h.2), ofDigits_map_digitWorth]
  · rfl

/-- Digit by digit the same number is read as at once, and the place is the same where none is read.
-/
theorem readDigits_eq (c : Cursor) (n radix : Nat) :
    c.readDigits n radix = c.orStay (c.digits? n radix) := by
  rw [readDigits, digits_eq]
  rcases takeExactly_eq radix n 0 c with ⟨hall, heq⟩ | ⟨hall, c', hc', heq⟩
  · rw [Nat.zero_min] at heq
    rw [heq, if_pos hall, ← ofDigits_map_digitWorth, ofDigits]
    rfl
  · rw [Nat.zero_min] at heq
    rw [heq, if_neg hall]
    dsimp only
    rw [hc'.seek]
    rfl

/-- The number whose first digit has been read is the number that begins with it. -/
theorem number_eq_numberAfter (c : Cursor) (radix : Nat) :
    c.number? radix = c.next?.bind fun p =>
      if isDigitIn radix p.1 then some (p.2.numberAfter p.1 radix) else none := by
  obtain ⟨before, rest⟩ := c
  cases rest with
  | nil => rfl
  | cons x rest =>
    cases hx : digitValue? radix x with
    | none => simp [number?, next?, spanDigits, isDigitIn, hx]
    | some d => simp [number?, numberAfter, next?, spanDigits, isDigitIn, advance, hx]

/-- Numbers are exact up to their limit however many digits they have, though no step on the way
goes beyond it.  A number takes all the digits there are and none but digits, also when its first
digit has been read before; a number of `n` digits takes them or, if there are not so many, nothing.
-/
theorem numbers_spec (c : Cursor) (radix n : Nat) :
    (∃ digits rest, c.rest = digits ++ rest ∧ (∀ x ∈ digits, isDigitIn radix x) ∧
      (∀ x ∈ rest.head?, ¬ isDigitIn radix x) ∧
      c.readNumber radix =
        (if digits = [] then none else some (min (numeralValue radix digits) (2 ^ 64 - 1)),
          ⟨digits.reverse ++ c.before, rest⟩)) ∧
    c.readNumber radix = c.orStay (c.number? radix) ∧
    (c.number? radix = c.next?.bind fun p =>
      if isDigitIn radix p.1 then some (p.2.numberAfter p.1 radix) else none) ∧
    c.readDigits n radix =
      (if n ≤ c.rest.length ∧ (c.rest.take n).all (isDigitIn radix) then
        (some (min (numeralValue radix (c.rest.take n)) (2 ^ 32 - 1)),
          ⟨(c.rest.take n).reverse ++ c.before, c.rest.drop n⟩)
      else (none, c)) ∧
    c.readDigits n radix = c.orStay (c.digits? n radix) := by
  have hnumber := readNumber_eq c radix
  have hdigits := readDigits_eq c n radix
  have hsplit := List.takeWhile_append_dropWhile (p := isDigitIn radix) (l := c.rest)
  refine ⟨⟨c.rest.takeWhile (isDigitIn radix), c.rest.dropWhile (isDigitIn radix), hsplit.symm,
    fun x hx => List.all_eq_true.mp List.all_takeWhile x hx, fun x hx => ?_, ?_⟩, hnumber,
    number_eq_numberAfter c radix, ?_, hdigits⟩
  · have hhead := List.head?_dropWhile_not (isDigitIn radix) c.rest
    rw [Option.mem_def.mp hx] at hhead
    simpa using hhead
  · rw [hnumber, number_eq]
    dsimp only
    split_ifs with hnil
    · rw [hnil, List.nil_append] at hsplit
      rw [hnil, hsplit]
      rfl
    · rfl
  · rw [hdigits, digits_eq]
    split_ifs <;> rfl

/-- Leading zeros do not count, and neither does what a number has beyond its limit. -/
example : (start "0099999999999999999999999,".toList).number? 10 =
    some (2 ^ 64 - 1, ⟨"9999999999999999999999900".toList, [',']⟩) := by
  decide

variable {delimiter text span : List Char}

theorem stands_iff (h : delimiter ≠ []) :
    (!delimiter.isEmpty && delimiter.isPrefixOf text) ↔ delimiter <+: text := by
  rw [Bool.and_eq_true, List.isPrefixOf_iff_prefix, and_iff_right]
  simpa using h

/-- What is found stands before the delimiter, and the delimiter stands nowhere earlier. -/
theorem first_of_findDelimiter (hd : delimiter ≠ [])
    (h : findDelimiter delimiter text = some span) :
    (∃ later, text = span ++ delimiter ++ later) ∧
      ∀ i < span.length, ¬ delimiter <+: text.drop i := by
  induction text generalizing span with
  | nil => cases h
  | cons x text ih =>
    rw [findDelimiter] at h
    split_ifs at h with hfound
    · cases h
      obtain ⟨later, hlater⟩ := (stands_iff hd).mp hfound
      exact ⟨⟨later, hlater.symm⟩, fun i hi => absurd hi (Nat.not_lt_zero i)⟩
    · obtain ⟨span', hspan, rfl⟩ := Option.map_eq_some_iff.mp h
      obtain ⟨⟨later, rfl⟩, hfirst⟩ := ih hspan
      refine ⟨⟨later, rfl⟩, fun i hi hp => ?_⟩
      cases i with
      | zero => exact hfound ((stands_iff hd).mpr hp)
      | succ i => exact hfirst i (Nat.lt_of_succ_lt_succ hi) hp

theorem not_infix_of_findDelimiter (hd : delimiter ≠ [])
    (h : findDelimiter delimiter text = none) : ¬ delimiter <:+: text := by
  induction text with
  | nil => rwa [List.infix_nil]
  | cons x text ih =>
    rw [findDelimiter] at h
    split_ifs at h with hfound
    have hlater := ih (Option.map_eq_none_iff.mp h)
    rw [List.infix_cons_iff]
    rintro (hp | hp)
    · exact hfound ((stands_iff hd).mpr hp)
    · exact hlater hp

/-- A delimiter that stands anywhere is found where it first stands, and the place is behind it;
else all of the text is taken. -/
theorem through_spec (c : Cursor) {delimiter : List Char} (hd : delimiter ≠ []) :
    (delimiter <:+: c.rest → ∃ span later, c.rest = span ++ delimiter ++ later ∧
      (∀ i < span.length, ¬ delimiter <+: (span ++ delimiter).drop i) ∧
      c.through delimiter = (span, true, ⟨(span ++ delimiter).reverse ++ c.before, later⟩)) ∧
    (¬ delimiter <:+: c.rest →
      c.through delimiter = (c.rest, false, ⟨c.rest.reverse ++ c.before, []⟩)) := by
  rw [through]
  cases hfind : findDelimiter delimiter c.rest with
  | none =>
    have habsent := not_infix_of_findDelimiter hd hfind
    have hadvance := advance_of_append (List.append_nil c.rest).symm
    refine ⟨fun h => absurd h habsent, fun _ => ?_⟩
    dsimp only
    rw [hadvance]
  | some span =>
    obtain ⟨⟨later, hlater⟩, hfirst⟩ := first_of_findDelimiter hd hfind
    have hadvance := advance_of_append hlater
    rw [List.length_append] at hadvance
    have hstands : delimiter <:+: c.rest := ⟨span, later, hlater.symm⟩
    refine ⟨fun _ => ⟨span, later, hlater, fun i hi hp => hfirst i hi ?_, ?_⟩,
      fun h => absurd hstands h⟩
    · rw [hlater, List.drop_append_of_le_length (by rw [List.length_append]; omega)]
      exact hp.trans (List.prefix_append _ later)
    · dsimp only
      rw [hadvance]

/-- A colon that no bracket follows is passed over, the delimiter may be the last of the text, and
its first half alone is none. -/
theorem through_colons :
    [':', ']'] ≠ [] ∧ [':', ']'] <:+: "a::]".toList ∧ ¬ [':', ']'] <:+: "a::".toList ∧
    (∃ span later, "a::]".toList = span ++ [':', ']'] ++ later ∧
      (∀ i < span.length, ¬ [':', ']'] <+: (span ++ [':', ']']).drop i) ∧
      (⟨['['], "a::]".toList⟩ : Cursor).through [':', ']'] =
        (span, true, ⟨(span ++ [':', ']']).reverse ++ ['['], later⟩)) ∧
    (⟨['['], "a::".toList⟩ : Cursor).through [':', ']'] =
      ("a::".toList, false, ⟨"::a[".toList, []⟩) := by
  have hd : [':', ']'] ≠ [] := List.cons_ne_nil _ _
  have hstands : [':', ']'] <:+: "a::]".toList := by decide
  have habsent : ¬ [':', ']'] <:+: "a::".toList := by decide
  exact ⟨hd, hstands, habsent, (through_spec ⟨['['], "a::]".toList⟩ hd).1 hstands,
    (through_spec ⟨['['], "a::".toList⟩ hd).2 habsent⟩

end Cursor
end IncrementalRegex
