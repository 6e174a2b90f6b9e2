import IncrementalRegex.Proofs.Kinds

namespace IncrementalRegex

/-- A decimal numeral of any length, with leading zeros or without. -/
structure Numeral (digits : List Char) : Prop where
  nonempty : digits ≠ []
  digit : ∀ x ∈ digits, x.isDigit

namespace Numeral

/-- The number that a numeral stands for. -/
def value (digits : List Char) : Nat := Nat.ofDigitChars 10 digits 0

theorem toString (n : Nat) : Numeral (toString n).toList where
  nonempty := by simp
  digit := by
    intro x hx
    rw [Nat.toString_eq_repr, Nat.toList_repr] at hx
    exact Nat.isDigit_of_mem_toDigits (by decide) (by decide) hx

theorem value_toString (n : Nat) : value (ToString.toString n).toList = n := by
  rw [Nat.toString_eq_repr, Nat.toList_repr]
  exact Nat.ofDigitChars_toDigits (by decide) (by decide)

end Numeral

/-- A text that does not go on with a digit. -/
def NumeralEnds (rest : List Char) : Prop := ∀ x ∈ rest.head?, x.isDigit = false

theorem digitValue_ten (x : Char) :
    digitValue? 10 x = if x.isDigit then some (x.toNat - '0'.toNat) else none := by
  cases hx : x.isDigit with
  | true =>
    have hlt : x.toNat - 48 < 10 := by
      simp only [Char.isDigit, Bool.and_eq_true, decide_eq_true_eq, UInt32.le_iff_toNat_le] at hx
      have hle : x.toNat ≤ 57 := hx.2
      omega
    simp [digitValue?, hx, hlt]
  | false =>
    simp only [digitValue?, hx, Bool.false_eq_true, if_false]
    split
    · simp
    · split <;> simp

/-- A run of digits ends where no digit follows. -/
theorem spanDigits_digits {digits rest : List Char} (h : ∀ x ∈ digits, x.isDigit)
    (hrest : NumeralEnds rest) :
    (spanDigits 10 (digits ++ rest)).1 = digits.map fun x => x.toNat - '0'.toNat := by
  induction digits with
  | nil =>
    cases rest with
    | nil => rfl
    | cons y rest =>
      have hy := hrest y rfl
      simp [spanDigits, digitValue_ten, hy]
  | cons y digits ih =>
    obtain ⟨hy, hdigits⟩ := List.forall_mem_cons.mp h
    simp [spanDigits, digitValue_ten, hy, ih hdigits]

theorem ofDigits_digits (digits : List Char) :
    ofDigits 10 (digits.map fun x => x.toNat - '0'.toNat) = Numeral.value digits := by
  simp only [ofDigits, List.foldl_map, Numeral.value, Nat.ofDigitChars, Nat.mul_comm]

namespace Lexicon

theorem read_digits (d : Dialect) {digits rest : List Char} (h : Numeral digits)
    (hrest : NumeralEnds rest) (before : List Char) :
    (brace d).read ⟨before, digits ++ rest⟩ =
      .ok (some (.ofCount .count (min (Numeral.value digits) largestCount),
        ⟨digits.reverse ++ before, rest⟩)) := by
  obtain ⟨hne, hdigits⟩ := h
  obtain ⟨x, digits, rfl⟩ := List.exists_cons_of_ne_nil hne
  obtain ⟨hx, hlater⟩ := List.forall_mem_cons.mp hdigits
  have hcomma : x ≠ ',' := by rintro rfl; cases hx
  have hclose : x ≠ '\x7d' := by rintro rfl; cases hx
  have hescape : x ≠ '\\' := by rintro rfl; cases hx
  have hkind : (brace d).alone.kind? x = some .count := by
    simp [brace, KindTable.inBrace, KindTable.kind?, List.lookup_cons, hx,
      beq_eq_false_iff_ne.mpr hcomma, beq_eq_false_iff_ne.mpr hclose]
  have hpair (c : Cursor) : (brace d).escape? x c = none := by
    simp [escape?, brace, List.lookup_cons, beq_eq_false_iff_ne.mpr hescape]
  let c : Cursor := ⟨x :: before, digits ++ rest⟩
  have hspan : (spanDigits 10 c.rest).1 = digits.map fun x => x.toNat - '0'.toNat :=
    spanDigits_digits hlater hrest
  have hvalue : ofDigits 10 ((digitValue? 10 x).toList ++
      digits.map fun x => x.toNat - '0'.toNat) = Numeral.value (x :: digits) := by
    rw [digitValue_ten, if_pos hx, ← ofDigits_digits]
    rfl
  have hadvance : c.advance digits.length = ⟨(x :: digits).reverse ++ before, rest⟩ := by
    simp [c, Cursor.advance]
  have htoken : (brace d).tokenOf .count x c =
      .ok (.ofCount .count (min (Numeral.value (x :: digits)) largestCount),
        ⟨(x :: digits).reverse ++ before, rest⟩) := by
    simp only [tokenOf, Cursor.numberAfter, hspan, hvalue, List.length_map, hadvance]
  exact read_eq_some_iff.mpr (.alone rfl (hpair c) hkind htoken)

end Lexicon

namespace Brace

variable {d : Dialect}

/-- The signs that close bounds. -/
inductive Closing (d : Dialect) : List Char → Prop where
  | plain : Closing d ['\x7d']
  | escaped (h : d.isBasic) : Closing d ['\\', '\x7d']

/-- What stands at the start of a text. -/
inductive Begins (d : Dialect) : List Char → Prop where
  | ended : Begins d []
  | numeral {digits rest : List Char} (numeral : Numeral digits)
      (ends : NumeralEnds rest) : Begins d (digits ++ rest)
  | comma (rest : List Char) : Begins d (',' :: rest)
  | closing {sign : List Char} (closes : Closing d sign) (rest : List Char) :
    Begins d (sign ++ rest)
  | other {text : List Char} (bad : ∀ before, ∃ x c,
      next d ⟨before, text⟩ = .ok (.ofChar .badBrace x, c)) : Begins d text

theorem begins_digit {x : Char} (hx : x.isDigit) (text : List Char) : Begins d (x :: text) := by
  have htext := List.takeWhile_append_dropWhile (p := Char.isDigit) (l := x :: text)
  rw [← htext]
  refine .numeral ⟨by simp [hx], fun y hy => List.all_eq_true.mp List.all_takeWhile y hy⟩ ?_
  intro y hy
  have hhead := List.head?_dropWhile_not Char.isDigit (x :: text)
  rw [hy] at hhead
  exact hhead

/-- A backslash closes bounds together with the brace after it, or else is out of place. -/
theorem begins_backslash (text : List Char) : Begins d ('\\' :: text) := by
  cases text with
  | nil => exact .other fun before => ⟨_, _, rfl⟩
  | cons y text =>
    by_cases hclose : d.isBasic ∧ y = '\x7d'
    · obtain ⟨hd, rfl⟩ := hclose
      exact .closing (.escaped hd) text
    · have hkind : (KindTable.inBraceEscaped d).kind? y = some .badBrace := by
        refine KindTable.kind_of_notMem rfl fun p hp hy => ?_
        unfold KindTable.inBraceEscaped at hp
        dsimp only at hp
        split_ifs at hp with hd
        · rw [List.mem_singleton.mp hp] at hy
          exact hclose ⟨hd, hy.symm⟩
        · cases hp
      have hpair (before : List Char) : (Lexicon.brace d).escape? '\\' ⟨before, y :: text⟩ =
          some (.badBrace, y, ⟨y :: before, text⟩) :=
        Lexicon.escape_eq_some_iff.mpr ⟨_, rfl, rfl, hkind⟩
      exact .other fun before => ⟨_, _, bind_eq_ok.2
        ⟨_, Lexicon.read_eq_some_iff.mpr (.pair rfl (hpair ('\\' :: before)) rfl), rfl⟩⟩

theorem begins (d : Dialect) (text : List Char) : Begins d text := by
  cases text with
  | nil => exact .ended
  | cons x text =>
    cases hx : x.isDigit with
    | true => exact begins_digit hx text
    | false =>
      by_cases hcomma : x = ','
      · exact hcomma ▸ .comma text
      · by_cases hclose : x = '\x7d'
        · exact hclose ▸ .closing .plain text
        · by_cases hescape : x = '\\'
          · exact hescape ▸ begins_backslash text
          · have hkind : (Lexicon.brace d).alone.kind? x = some .badBrace := by
              simp [Lexicon.brace, KindTable.inBrace, KindTable.kind?, List.lookup_cons, hx,
                beq_eq_false_iff_ne.mpr hcomma, beq_eq_false_iff_ne.mpr hclose]
            have hpair (c : Cursor) : (Lexicon.brace d).escape? x c = none := by
              simp [Lexicon.escape?, Lexicon.brace, List.lookup_cons,
                beq_eq_false_iff_ne.mpr hescape]
            exact .other fun before => ⟨_, _, bind_eq_ok.2
              ⟨_, Lexicon.read_eq_some_iff.mpr (.alone rfl (hpair _) hkind rfl), rfl⟩⟩

variable {before rest digits : List Char}

theorem next_ended : next d ⟨before, []⟩ = .error ⟨.brace, before.length⟩ := rfl

theorem next_numeral (h : Numeral digits) (hrest : NumeralEnds rest) :
    next d ⟨before, digits ++ rest⟩ =
      .ok (.ofCount .count (min (Numeral.value digits) largestCount),
        ⟨digits.reverse ++ before, rest⟩) :=
  bind_eq_ok.2 ⟨_, Lexicon.read_digits d h hrest before, rfl⟩

theorem next_comma :
    next d ⟨before, ',' :: rest⟩ = .ok (.ofChar .comma ',', ⟨',' :: before, rest⟩) := rfl

theorem next_closing {sign : List Char} (h : Closing d sign) :
    next d ⟨before, sign ++ rest⟩ =
      .ok (.ofChar .rBrace '\x7d', ⟨sign.reverse ++ before, rest⟩) := by
  cases h with
  | plain => rfl
  | escaped h => cases d <;> first | rfl | cases h

/-- The closing brace after two counts. -/
def afterUpper (d : Dialect) (lower upper : Nat) (c : Cursor) :
    Except PatternError (Option (Bounds × Cursor)) := do
  let (t, c) ← next d c
  if t.hasKind .rBrace then bounds lower upper c else c.fail .repetitionCount

/-- What follows the comma. -/
def afterComma (d : Dialect) (lower : Nat) (c : Cursor) :
    Except PatternError (Option (Bounds × Cursor)) := do
  let (t, c) ← next d c
  if t.hasKind .rBrace then bounds lower unbounded c
  else
    let upper ← count t c
    afterUpper d lower upper c

/-- What follows the first count. -/
def afterLower (d : Dialect) (lower : Nat) (c : Cursor) :
    Except PatternError (Option (Bounds × Cursor)) := do
  let (t, c) ← next d c
  match t.kind with
  | .rBrace => bounds lower lower c
  | .comma => afterComma d lower c
  | _ => c.fail .repetitionCount

theorem read_eq (d : Dialect) (c : Cursor) : read d c =
    if c.atEnd then .ok none
    else next d c >>= fun p => count p.1 p.2 >>= fun lower => afterLower d lower p.2 := rfl

variable {sign : List Char} {lower upper : Nat}

/-- A numeral whose number may be written out. -/
structure Count (digits : List Char) : Prop extends Numeral digits where
  within : Numeral.value digits ≤ largestWritten

theorem ends_comma (rest : List Char) : NumeralEnds (',' :: rest) := by
  intro x hx
  cases hx
  rfl

theorem ends_closing (h : Closing d sign) (rest : List Char) : NumeralEnds (sign ++ rest) := by
  intro x hx
  cases h <;> cases hx <;> rfl

theorem count_of_le (h : Count digits) (c : Cursor) :
    count (.ofCount .count (min (Numeral.value digits) largestCount)) c =
      .ok (Numeral.value digits) := by
  have hle : largestWritten ≤ largestCount := by decide
  have hvalue : min (Numeral.value digits) largestCount = Numeral.value digits :=
    Nat.min_eq_left (Nat.le_trans h.within hle)
  rw [hvalue]
  exact count_eq_ok_iff.mpr ⟨⟨rfl, h.within⟩, rfl⟩

theorem read_count (h : Count digits) (hrest : NumeralEnds rest) :
    read d ⟨before, digits ++ rest⟩ =
      afterLower d (Numeral.value digits) ⟨digits.reverse ++ before, rest⟩ := by
  have hnext : next d ⟨before, digits ++ rest⟩ = _ := next_numeral h.toNumeral hrest
  rw [read_eq, atEnd_of_next hnext, hnext, if_neg Bool.false_ne_true]
  change count _ _ >>= _ = _
  rw [count_of_le h]
  rfl

theorem afterLower_closing (h : Closing d sign) :
    afterLower d lower ⟨before, sign ++ rest⟩ =
      bounds lower lower ⟨sign.reverse ++ before, rest⟩ := by
  rw [afterLower, next_closing h]
  rfl

theorem afterLower_comma :
    afterLower d lower ⟨before, ',' :: rest⟩ = afterComma d lower ⟨',' :: before, rest⟩ := rfl

theorem afterComma_closing (h : Closing d sign) :
    afterComma d lower ⟨before, sign ++ rest⟩ =
      bounds lower unbounded ⟨sign.reverse ++ before, rest⟩ := by
  rw [afterComma, next_closing h]
  rfl

theorem afterComma_count (h : Count digits) (hrest : NumeralEnds rest) :
    afterComma d lower ⟨before, digits ++ rest⟩ =
      afterUpper d lower (Numeral.value digits) ⟨digits.reverse ++ before, rest⟩ := by
  rw [afterComma, next_numeral h.toNumeral hrest]
  change count _ _ >>= _ = _
  rw [count_of_le h]
  rfl

theorem afterUpper_closing (h : Closing d sign) :
    afterUpper d lower upper ⟨before, sign ++ rest⟩ =
      bounds lower upper ⟨sign.reverse ++ before, rest⟩ := by
  rw [afterUpper, next_closing h]
  rfl

/-- The texts of bounds, and the bounds that they are.  A numeral is followed by a sign, so that it
is all the digits there are. -/
inductive Spelled (d : Dialect) : List Char → Nat → Nat → Prop where
  | exactly {digits sign : List Char} (count : Count digits) (closes : Closing d sign) :
    Spelled d (digits ++ sign) (Numeral.value digits) (Numeral.value digits)
  | atLeast {digits sign : List Char} (count : Count digits) (closes : Closing d sign) :
    Spelled d (digits ++ ',' :: sign) (Numeral.value digits) unbounded
  | between {digits digits' sign : List Char} (lower : Count digits) (upper : Count digits')
      (ordered : Numeral.value digits ≤ Numeral.value digits') (closes : Closing d sign) :
    Spelled d (digits ++ ',' :: (digits' ++ sign)) (Numeral.value digits) (Numeral.value digits')

/-- The texts that end before the bounds do. -/
inductive Unclosed : List Char → Prop where
  | lower {digits : List Char} (count : Count digits) : Unclosed digits
  | comma {digits : List Char} (count : Count digits) : Unclosed (digits ++ [','])
  | upper {digits digits' : List Char} (lower : Count digits) (upper : Count digits') :
    Unclosed (digits ++ ',' :: digits')

theorem Spelled.le {spelled : List Char} (h : Spelled d spelled lower upper) :
    lower ≤ upper ∧ upper ≤ unbounded := by
  have hle : largestWritten ≤ unbounded := by decide
  cases h with
  | exactly count => exact ⟨Nat.le_refl _, Nat.le_trans count.within hle⟩
  | atLeast count => exact ⟨Nat.le_trans count.within hle, Nat.le_refl _⟩
  | between _ upper ordered => exact ⟨ordered, Nat.le_trans upper.within hle⟩

theorem bounds_of_le (h : lower ≤ upper) (h' : upper ≤ unbounded) (c : Cursor) :
    bounds lower upper c = .ok (some (⟨lower, upper, h, h'⟩, c)) :=
  bounds_eq_some_iff.mpr ⟨dif_pos ⟨h, h'⟩, rfl⟩

theorem read_spelled {spelled : List Char} (h : Spelled d spelled lower upper)
    (before rest : List Char) : read d ⟨before, spelled ++ rest⟩ =
      .ok (some (⟨lower, upper, h.le.1, h.le.2⟩, ⟨spelled.reverse ++ before, rest⟩)) := by
  rw [← bounds_of_le]
  cases h with
  | exactly count closes =>
    rw [List.append_assoc, read_count count (ends_closing closes rest), afterLower_closing closes]
    simp
  | atLeast count closes =>
    rw [List.append_assoc, List.cons_append, read_count count (ends_comma _), afterLower_comma,
      afterComma_closing closes]
    simp
  | between lower upper _ closes =>
    rw [List.append_assoc, List.cons_append, List.append_assoc, read_count lower (ends_comma _),
      afterLower_comma, afterComma_count upper (ends_closing closes rest),
      afterUpper_closing closes]
    simp

theorem read_unclosed {text : List Char} (h : Unclosed text) (before : List Char) :
    read d ⟨before, text⟩ = .error ⟨.brace, (text.reverse ++ before).length⟩ := by
  have hend : NumeralEnds [] := by simp [NumeralEnds]
  cases h with
  | lower count =>
    rw [← text.append_nil, read_count count hend]
    simp [afterLower, next_ended, bind, Except.bind]
  | comma count =>
    rw [read_count count (ends_comma [])]
    simp [afterLower_comma, afterComma, next_ended, bind, Except.bind]
  | @upper digits digits' lower upper =>
    rw [read_count lower (ends_comma _), afterLower_comma, ← digits'.append_nil,
      afterComma_count upper hend]
    simp [afterUpper, next_ended, bind, Except.bind]

theorem Count.toString {n : Nat} (h : n ≤ largestWritten) : Count (toString n).toList :=
  ⟨.toString n, (Numeral.value_toString n).symm ▸ h⟩

theorem spelled_atLeast (h : lower ≤ largestWritten) (closes : Closing d sign) :
    Spelled d ((toString lower).toList ++ ',' :: sign) lower unbounded := by
  have hspelled := Spelled.atLeast (.toString h) closes
  rwa [Numeral.value_toString] at hspelled

theorem spelled_between (b : Bounds) (h : b.upper ≤ largestWritten) (closes : Closing d sign) :
    Spelled d ((toString b.lower).toList ++ ',' :: ((toString b.upper).toList ++ sign))
      b.lower b.upper := by
  have hspelled := Spelled.between (.toString (Nat.le_trans b.lower_le_upper h)) (.toString h)
    (by simpa only [Numeral.value_toString] using b.lower_le_upper) closes
  rwa [Numeral.value_toString, Numeral.value_toString] at hspelled

/-- The text of bounds spells them, after its opening brace. -/
theorem spelled_text {b : Bounds} (hlower : b.lower ≤ largestWritten)
    (hupper : b.upper ≤ largestWritten ∨ b.upper = unbounded) :
    ∃ spelled, b.text.toList = '\x7b' :: spelled ∧ Spelled d spelled b.lower b.upper := by
  by_cases hb : b.isUnbounded
  · have hspelled := spelled_atLeast hlower (.plain (d := d))
    rw [← eq_of_beq hb] at hspelled
    exact ⟨_, by simp [Bounds.text, hb], hspelled⟩
  · have hupper := hupper.resolve_right fun h => hb (beq_iff_eq.mpr h)
    exact ⟨_, by simp [Bounds.text, hb], spelled_between b hupper .plain⟩

/-- The fault of bounds that are wrong, at whatever place. -/
def Bad (r : Except PatternError (Option (Bounds × Cursor))) : Prop :=
  ∃ place, r = .error ⟨.repetitionCount, place⟩

theorem bad_fail (c : Cursor) : Bad (c.fail .repetitionCount) := ⟨_, rfl⟩

theorem bad_count {t : Token} (h : ¬ Written t) (c : Cursor)
    (f : Nat → Except PatternError (Option (Bounds × Cursor))) : Bad (count t c >>= f) := by
  have hcount : count t c = c.fail .repetitionCount := by
    refine if_neg fun ht => h ?_
    simpa [Written, Token.hasKind] using ht
  rw [hcount]
  exact bad_fail c

theorem bad_bounds (h : upper < lower) (c : Cursor) : Bad (bounds lower upper c) := by
  have hnone : Bounds.between? lower upper = none := dif_neg fun hle => absurd hle.1 (by omega)
  rw [bounds, hnone]
  exact bad_fail c

/-- A numeral stands for a count, unless it is too large. -/
theorem count_or_bad (h : Numeral digits) : Count digits ∨
    ∀ c f, Bad (count (.ofCount .count (min (Numeral.value digits) largestCount)) c >>= f) := by
  by_cases hle : Numeral.value digits ≤ largestWritten
  · exact .inl ⟨h, hle⟩
  · refine .inr fun c f => bad_count (fun hw => hle ?_) c f
    have hlimit : largestWritten < largestCount := by decide
    have hmin : min (Numeral.value digits) largestCount ≤ largestWritten := hw.2
    omega

theorem afterUpper_cases (d : Dialect) (text : List Char) : text = [] ∨
    (∃ sign rest, Closing d sign ∧ text = sign ++ rest) ∨
    ∀ lower upper before, Bad (afterUpper d lower upper ⟨before, text⟩) := by
  cases begins d text with
  | ended => exact .inl rfl
  | closing closes rest => exact .inr (.inl ⟨_, rest, closes, rfl⟩)
  | numeral h ends =>
    refine .inr (.inr fun lower upper before => ?_)
    rw [afterUpper, next_numeral h ends]
    exact bad_fail _
  | comma rest => exact .inr (.inr fun lower upper before => bad_fail _)
  | other bad =>
    refine .inr (.inr fun lower upper before => ?_)
    obtain ⟨x, c, hnext⟩ := bad before
    rw [afterUpper, hnext]
    exact bad_fail _

theorem afterComma_cases (d : Dialect) (text : List Char) : text = [] ∨
    (∃ sign rest, Closing d sign ∧ text = sign ++ rest) ∨
    (∃ digits rest, Count digits ∧ NumeralEnds rest ∧ text = digits ++ rest) ∨
    ∀ lower before, Bad (afterComma d lower ⟨before, text⟩) := by
  cases begins d text with
  | ended => exact .inl rfl
  | closing closes rest => exact .inr (.inl ⟨_, rest, closes, rfl⟩)
  | @numeral digits rest h ends =>
    rcases count_or_bad h with hcount | hbad
    · exact .inr (.inr (.inl ⟨digits, rest, hcount, ends, rfl⟩))
    · refine .inr (.inr (.inr fun lower before => ?_))
      rw [afterComma, next_numeral h ends]
      exact hbad _ _
  | comma rest =>
    refine .inr (.inr (.inr fun lower before => ?_))
    exact bad_count (t := .ofChar .comma ',') (fun hw => nomatch hw.1) ⟨',' :: before, rest⟩
      fun upper => afterUpper d lower upper ⟨',' :: before, rest⟩
  | other bad =>
    refine .inr (.inr (.inr fun lower before => ?_))
    obtain ⟨x, c, hnext⟩ := bad before
    rw [afterComma, hnext]
    exact bad_count (t := .ofChar .badBrace x) (fun hw => nomatch hw.1) c
      fun upper => afterUpper d lower upper c

theorem afterLower_cases (d : Dialect) (text : List Char) : text = [] ∨
    (∃ sign rest, Closing d sign ∧ text = sign ++ rest) ∨ (∃ rest, text = ',' :: rest) ∨
    ∀ lower before, Bad (afterLower d lower ⟨before, text⟩) := by
  cases begins d text with
  | ended => exact .inl rfl
  | closing closes rest => exact .inr (.inl ⟨_, rest, closes, rfl⟩)
  | comma rest => exact .inr (.inr (.inl ⟨rest, rfl⟩))
  | numeral h ends =>
    refine .inr (.inr (.inr fun lower before => ?_))
    rw [afterLower, next_numeral h ends]
    exact bad_fail _
  | other bad =>
    refine .inr (.inr (.inr fun lower before => ?_))
    obtain ⟨x, c, hnext⟩ := bad before
    rw [afterLower, hnext]
    exact bad_fail _

theorem read_first_cases (d : Dialect) (text : List Char) : text = [] ∨
    (∃ digits rest, Count digits ∧ NumeralEnds rest ∧ text = digits ++ rest) ∨
    ∀ before, Bad (read d ⟨before, text⟩) := by
  have bad {p : Token × Cursor} {before : List Char} (hnext : next d ⟨before, text⟩ = .ok p)
      (hbad : Bad (count p.1 p.2 >>= fun lower => afterLower d lower p.2)) :
      Bad (read d ⟨before, text⟩) := by
    rw [read_eq, atEnd_of_next hnext, hnext]
    exact hbad
  have bad_sign {p : Token × Cursor} {before : List Char} (hnext : next d ⟨before, text⟩ = .ok p)
      (hp : p.1.kind ≠ .count) : Bad (read d ⟨before, text⟩) :=
    bad hnext (bad_count (fun hw => hp hw.1) _ _)
  cases begins d text with
  | ended => exact .inl rfl
  | @numeral digits rest h ends =>
    rcases count_or_bad h with hcount | hbad
    · exact .inr (.inl ⟨digits, rest, hcount, ends, rfl⟩)
    · exact .inr (.inr fun before => bad (next_numeral h ends) (hbad _ _))
  | closing closes rest =>
    exact .inr (.inr fun before => bad_sign (next_closing closes) (by nofun))
  | comma rest => exact .inr (.inr fun before => bad_sign next_comma (by nofun))
  | other hother =>
    refine .inr (.inr fun before => ?_)
    obtain ⟨x, c, hnext⟩ := hother before
    exact bad_sign hnext (by nofun)

/-- A text that does not start with bounds and does not end too early is wrong. -/
theorem read_cases (d : Dialect) (before text : List Char) : text = [] ∨
    (∃ spelled rest lower upper, Spelled d spelled lower upper ∧ text = spelled ++ rest) ∨
    Unclosed text ∨ Bad (read d ⟨before, text⟩) := by
  rcases read_first_cases d text with hend | ⟨D, rest, hD, hrest, rfl⟩ | hbad
  · exact .inl hend
  · rcases afterLower_cases d rest with rfl | ⟨sign, rest, closes, rfl⟩ | ⟨rest, rfl⟩ | hbad
    · exact .inr (.inr (.inl (by simpa using Unclosed.lower hD)))
    · exact .inr (.inl ⟨_, rest, _, _, .exactly hD closes, by simp⟩)
    · rcases afterComma_cases d rest with
        rfl | ⟨sign, rest, closes, rfl⟩ | ⟨E, rest, hE, hrest', rfl⟩ | hbad
      · exact .inr (.inr (.inl (.comma hD)))
      · exact .inr (.inl ⟨_, rest, _, _, .atLeast hD closes, by simp⟩)
      · have hread : read d ⟨before, D ++ ',' :: (E ++ rest)⟩ = afterUpper d (Numeral.value D)
            (Numeral.value E) ⟨E.reverse ++ ',' :: (D.reverse ++ before), rest⟩ := by
          rw [read_count hD (ends_comma _), afterLower_comma, afterComma_count hE hrest']
        rcases afterUpper_cases d rest with rfl | ⟨sign, rest, closes, rfl⟩ | hbad
        · exact .inr (.inr (.inl (by simpa using Unclosed.upper hD hE)))
        · by_cases hle : Numeral.value D ≤ Numeral.value E
          · exact .inr (.inl ⟨_, rest, _, _, .between hD hE hle closes, by simp⟩)
          · refine .inr (.inr (.inr ?_))
            rw [hread, afterUpper_closing closes]
            exact bad_bounds (Nat.lt_of_not_le hle) _
        · refine .inr (.inr (.inr ?_))
          rw [hread]
          exact hbad _ _ _
      · refine .inr (.inr (.inr ?_))
        rw [read_count hD (ends_comma _), afterLower_comma]
        exact hbad _ _
    · refine .inr (.inr (.inr ?_))
      rw [read_count hD hrest]
      exact hbad _ _
  · exact .inr (.inr (.inr (hbad before)))

variable {text : List Char}

theorem read_eq_none_iff : read d ⟨before, text⟩ = .ok none ↔ text = [] := by
  refine ⟨fun hread => ?_, fun h => h ▸ rfl⟩
  rcases read_cases d before text with
    hend | ⟨spelled, rest, lower, upper, h, rfl⟩ | h | ⟨place, h⟩
  · exact hend
  · cases (read_spelled h before rest).symm.trans hread
  · cases (read_unclosed h before).symm.trans hread
  · cases h.symm.trans hread

theorem read_eq_bounds_iff {b : Bounds} {c : Cursor} :
    read d ⟨before, text⟩ = .ok (some (b, c)) ↔ ∃ spelled rest, text = spelled ++ rest ∧
      Spelled d spelled b.lower b.upper ∧ c = ⟨spelled.reverse ++ before, rest⟩ := by
  constructor
  · intro hread
    rcases read_cases d before text with
      rfl | ⟨spelled, rest, lower, upper, h, rfl⟩ | h | ⟨place, h⟩
    · cases hread
    · cases (read_spelled h before rest).symm.trans hread
      exact ⟨spelled, rest, rfl, h, rfl⟩
    · cases (read_unclosed h before).symm.trans hread
    · cases h.symm.trans hread
  · rintro ⟨spelled, rest, rfl, h, rfl⟩
    exact read_spelled h before rest

theorem read_eq_unclosed_iff :
    (∃ place, read d ⟨before, text⟩ = .error ⟨.brace, place⟩) ↔ Unclosed text := by
  refine ⟨fun ⟨place, hread⟩ => ?_, fun h => ⟨_, read_unclosed h before⟩⟩
  rcases read_cases d before text with
    rfl | ⟨spelled, rest, lower, upper, h, rfl⟩ | h | ⟨place, h⟩
  · cases hread
  · cases (read_spelled h before rest).symm.trans hread
  · exact h
  · cases h.symm.trans hread

theorem bad_read_iff : Bad (read d ⟨before, text⟩) ↔ text ≠ [] ∧ ¬ Unclosed text ∧
    ¬ ∃ spelled rest lower upper, text = spelled ++ rest ∧ Spelled d spelled lower upper := by
  constructor
  · rintro ⟨place, hread⟩
    refine ⟨?_, fun h => ?_, ?_⟩
    · rintro rfl
      cases hread
    · cases (read_unclosed h before).symm.trans hread
    · rintro ⟨spelled, rest, lower, upper, rfl, h⟩
      cases (read_spelled h before rest).symm.trans hread
  · rintro ⟨hend, hunclosed, hspelled⟩
    rcases read_cases d before text with
      h | ⟨spelled, rest, lower, upper, h, rfl⟩ | h | h
    · exact absurd h hend
    · exact absurd ⟨spelled, rest, lower, upper, rfl, h⟩ hspelled
    · exact absurd h hunclosed
    · exact h

/-- Which texts are read as bounds, what is wrong with every other text, and that bounds are read
back from the text that they have. -/
theorem read_spec (d : Dialect) :
    (∀ before text,
      (read d ⟨before, text⟩ = .ok none ↔ text = []) ∧
      (∀ b c, read d ⟨before, text⟩ = .ok (some (b, c)) ↔ ∃ spelled rest, text = spelled ++ rest ∧
        Spelled d spelled b.lower b.upper ∧ c = ⟨spelled.reverse ++ before, rest⟩) ∧
      ((∃ place, read d ⟨before, text⟩ = .error ⟨.brace, place⟩) ↔ Unclosed text) ∧
      ((∃ place, read d ⟨before, text⟩ = .error ⟨.repetitionCount, place⟩) ↔
        text ≠ [] ∧ ¬ Unclosed text ∧ ¬ ∃ spelled rest lower upper,
          text = spelled ++ rest ∧ Spelled d spelled lower upper)) ∧
    (∀ b : Bounds, b.lower ≤ largestWritten → (b.upper ≤ largestWritten ∨ b.upper = unbounded) →
      ∃ written, b.text.toList = '\x7b' :: written ∧ ∀ before rest,
        read d ⟨before, written ++ rest⟩ = .ok (some (b, ⟨written.reverse ++ before, rest⟩))) := by
  refine ⟨fun before text => ⟨read_eq_none_iff, fun b c => read_eq_bounds_iff,
    read_eq_unclosed_iff, bad_read_iff⟩, fun b hlower hupper => ?_⟩
  obtain ⟨written, htext, hwritten⟩ := spelled_text hlower hupper
  exact ⟨written, htext, fun before rest =>
    read_eq_bounds_iff.mpr ⟨written, rest, rfl, hwritten, rfl⟩⟩

theorem read_padded_count :
    read .basic ⟨[], "007,12\\\x7dx".toList⟩ =
      .ok (some (⟨7, 12, by decide, by decide⟩, ⟨"\x7d\\21,700".toList, ['x']⟩)) ∧
    ∃ written, (Bounds.atLeast 3).text.toList = '\x7b' :: written ∧ ∀ before rest,
      read .basic ⟨before, written ++ rest⟩ =
        .ok (some (.atLeast 3, ⟨written.reverse ++ before, rest⟩)) := by
  have hseven : Count "007".toList := ⟨⟨by decide, List.all_eq_true.mp (by decide)⟩, by decide⟩
  have htwelve : Count "12".toList := ⟨⟨by decide, List.all_eq_true.mp (by decide)⟩, by decide⟩
  exact ⟨((read_spec .basic).1 [] _).2.1 _ _ |>.mpr
      ⟨_, ['x'], rfl, .between hseven htwelve (by decide) (.escaped rfl), rfl⟩,
    (read_spec .basic).2 (.atLeast 3) (by decide) (.inr rfl)⟩

end Brace

end IncrementalRegex
