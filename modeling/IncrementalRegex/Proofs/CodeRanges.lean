import IncrementalRegex.Proofs.Brackets

namespace IncrementalRegex

/-- A character whose code is written in four hexadecimal digits. -/
structure CodeEscape where
  char : Char
  digits : List Char
  values : List Nat
  four : values.length = 4
  read : digits.map (digitValue? 16) = values.map some
  code : ofDigits 16 values = char.toNat

/-- The digit of a value below 16. -/
def hexDigit (n : Nat) : Char := if n < 10 then Char.ofNat (0x30 + n) else Char.ofNat (0x37 + n)

theorem digitValue_hexDigit : ∀ n < 16, digitValue? 16 (hexDigit n) = some n := by decide

/-- The values of the digits of a code that has up to four. -/
def codeValues (c : Char) : List Nat :=
  [c.toNat / 4096, c.toNat / 256 % 16, c.toNat / 16 % 16, c.toNat % 16]

theorem ofDigits_codeValues (c : Char) : ofDigits 16 (codeValues c) = c.toNat := by
  simp only [codeValues, ofDigits, List.foldl_cons, List.foldl_nil]
  omega

theorem map_hexDigit_codeValues {c : Char} (h : c.toNat < 0x10000) :
    ((codeValues c).map hexDigit).map (digitValue? 16) = (codeValues c).map some := by
  have hvalues : ∀ v ∈ codeValues c, v < 16 := by
    simp only [codeValues, List.mem_cons, List.not_mem_nil, or_false]
    omega
  rw [List.map_map]
  exact List.map_congr_left fun v hv => digitValue_hexDigit v (hvalues v hv)

namespace CodeEscape

/-- Characters up to this limit have codes of four digits. -/
def ofChar (c : Char) (h : c.toNat < 0x10000) : CodeEscape where
  char := c
  digits := (codeValues c).map hexDigit
  values := codeValues c
  four := rfl
  read := map_hexDigit_codeValues h
  code := ofDigits_codeValues c

def spell (e : CodeEscape) : List Char := '\\' :: 'u' :: e.digits

def token (e : CodeEscape) : Token := .ofChar .bracketLiteral e.char

end CodeEscape

structure CodeRange where
  first : CodeEscape
  last : CodeEscape
  le : first.char ≤ last.char

namespace CodeRange

def spell (r : CodeRange) : List Char := r.first.spell ++ '-' :: r.last.spell

def tokens (r : CodeRange) : List Token :=
  [r.first.token, .ofChar .rangeDash '-', r.last.token]

def Holds (r : CodeRange) (c : Char) : Prop := r.first.char ≤ c ∧ c ≤ r.last.char

/-- The start of the range would be an ordinary character directly after the opening bracket. -/
def StartsWithSign (r : CodeRange) : Prop := r.first.char = ']' ∨ r.first.char = '-'

instance : DecidablePred StartsWithSign := fun r =>
  inferInstanceAs (Decidable (r.first.char = ']' ∨ r.first.char = '-'))

/-- What the range comes to if its start starts no range: its ends, and the dash. -/
def members (r : CodeRange) : List Char := [r.first.char, '-', r.last.char]

/-- What the range lists where it stands first. -/
def Leads (r : CodeRange) (c : Char) : Prop :=
  if r.StartsWithSign then c ∈ r.members else r.Holds c

def leadingTokens (r : CodeRange) : List Token :=
  if r.StartsWithSign then r.members.map (.ofChar .bracketLiteral) else r.tokens

/-- The bracket expression of a list of ranges. -/
def spellAll (rs : List CodeRange) : List Char := '[' :: (rs.flatMap spell ++ [']'])

end CodeRange

theorem charOfCode_toNat (c : Char) : charOfCode? c.toNat = some c := by
  have hvalid : c.toNat.isValidChar := c.valid
  rw [charOfCode?, if_pos hvalid, Char.ofNat_toNat]

namespace CodeEscape

variable (e : CodeEscape)

theorem length_digits : e.digits.length = 4 := by
  have hlength := congrArg List.length e.read
  rw [List.length_map, List.length_map] at hlength
  rw [hlength, e.four]

theorem filterMap_digits : e.digits.filterMap (digitValue? 16) = e.values := by
  have hvalues := congrArg (List.filterMap id) e.read
  simpa using hvalues

theorem digits_code (before rest : List Char) : ∃ before',
    Cursor.digits? ⟨before, e.digits ++ rest⟩ 4 16 = some (e.char.toNat, ⟨before', rest⟩) := by
  have htake : (e.digits ++ rest).take 4 = e.digits := by
    rw [← e.length_digits, List.take_left]
  have hdrop : (e.digits ++ rest).drop 4 = rest := by
    rw [← e.length_digits, List.drop_left]
  have hlimit : e.char.toNat ≤ largestCode := Nat.le_pred_of_lt e.char.val.toNat_lt
  refine ⟨e.digits.reverse ++ before, ?_⟩
  simp only [Cursor.digits?, htake, e.filterMap_digits, e.four, if_true, e.code,
    Nat.min_eq_left hlimit, Cursor.advance, hdrop]

theorem read_bracket (before rest : List Char) : ∃ before',
    (Lexicon.bracket .ecmascript).read ⟨before, e.spell ++ rest⟩ =
      .ok (some (e.token, ⟨before', rest⟩)) := by
  obtain ⟨before', hdigits⟩ := e.digits_code ('u' :: '\\' :: before) rest
  have hescape : (Lexicon.bracket .ecmascript).escape? '\\'
      ⟨'\\' :: before, 'u' :: (e.digits ++ rest)⟩ =
        some (.unicodeEscape, 'u', ⟨'u' :: '\\' :: before, e.digits ++ rest⟩) :=
    Lexicon.escape_eq_some_iff.mpr ⟨_, rfl, rfl, rfl⟩
  have htoken : (Lexicon.bracket .ecmascript).tokenOf .unicodeEscape 'u'
      ⟨'u' :: '\\' :: before, e.digits ++ rest⟩ = .ok (e.token, ⟨before', rest⟩) := by
    simp only [Lexicon.tokenOf, hdigits, charOfCode_toNat]
    rfl
  exact ⟨before', Lexicon.read_eq_some_iff.mpr (.pair rfl hescape htoken)⟩

end CodeEscape

namespace BracketReader

variable {p : BracketPlace}

theorem reads_escape (e : CodeEscape) (before rest : List Char) : ∃ before',
    Reads .ecmascript ⟨p, {}⟩ ⟨before, e.spell ++ rest⟩ e.token ⟨p.after e.token, {}⟩
      ⟨before', rest⟩ := by
  obtain ⟨before', hread⟩ := e.read_bracket before rest
  have hmeaning : p.meaning e.token = e.token := by cases p <;> rfl
  have hreads := reads_of_read (p := p) hread (by rw [hmeaning]; rfl)
  rw [hmeaning] at hreads
  exact ⟨before', hreads⟩

/-- Behind an item a dash is an ordinary character. -/
theorem reads_plain_dash (before rest : List Char) :
    Reads .ecmascript ⟨.afterItem, {}⟩ ⟨before, '-' :: rest⟩ (.ofChar .bracketLiteral '-')
      ⟨.afterRangeStart, {}⟩ ⟨'-' :: before, rest⟩ :=
  reads_of_read (Lexicon.read_bracket_dash before rest) rfl

end BracketReader

namespace TokenReader

variable {ignoreCase : Bool} {p : BracketPlace}

/-- Where its start may start a range, a range is read as one. -/
theorem readsTo_codeRange (r : CodeRange) (hp : p.after r.first.token = .afterRangeStart)
    (before rest : List Char) : ∃ before',
    (inBracket .ecmascript ignoreCase ⟨p, {}⟩ ⟨before, r.spell ++ rest⟩).ReadsTo r.tokens
      (inBracket .ecmascript ignoreCase ⟨.afterItem, {}⟩ ⟨before', rest⟩) := by
  obtain ⟨b₁, hfirst⟩ := BracketReader.reads_escape (p := p) r.first before
    ('-' :: (r.last.spell ++ rest))
  obtain ⟨b₂, hlast⟩ := r.last.read_bracket ('-' :: b₁) rest
  rw [hp] at hfirst
  refine ⟨b₂, ?_⟩
  rw [CodeRange.spell, List.append_assoc, List.cons_append]
  exact readsTo_range hfirst (.inl rfl) hlast (.inl rfl)

/-- Where its start is an item of its own, so are the dash and the end. -/
theorem readsTo_members (r : CodeRange) (hp : p.after r.first.token = .afterItem)
    (before rest : List Char) : ∃ before',
    (inBracket .ecmascript ignoreCase ⟨p, {}⟩ ⟨before, r.spell ++ rest⟩).ReadsTo
      (r.members.map (.ofChar .bracketLiteral))
      (inBracket .ecmascript ignoreCase ⟨.afterRangeStart, {}⟩ ⟨before', rest⟩) := by
  obtain ⟨b₁, hfirst⟩ := BracketReader.reads_escape (p := p) r.first before
    ('-' :: (r.last.spell ++ rest))
  have hdash := BracketReader.reads_plain_dash b₁ (r.last.spell ++ rest)
  obtain ⟨b₂, hlast⟩ := BracketReader.reads_escape (p := .afterRangeStart) r.last ('-' :: b₁) rest
  rw [hp] at hfirst
  refine ⟨b₂, ?_⟩
  rw [CodeRange.spell, List.append_assoc, List.cons_append]
  exact .step (read_inBracket hfirst rfl) (.step (read_inBracket hdash rfl)
    (.step (read_inBracket hlast rfl) (.refl _)))

theorem readsTo_codeRanges (rs : List CodeRange) (hp : p.IsAfterMember)
    (before rest : List Char) : ∃ p' before', p'.IsAfterMember ∧
      (inBracket .ecmascript ignoreCase ⟨p, {}⟩
        ⟨before, rs.flatMap CodeRange.spell ++ rest⟩).ReadsTo (rs.flatMap CodeRange.tokens)
        (inBracket .ecmascript ignoreCase ⟨p', {}⟩ ⟨before', rest⟩) := by
  induction rs generalizing p before with
  | nil => exact ⟨p, before, hp, .refl _⟩
  | cons r rs ih =>
    have hstart : p.after r.first.token = .afterRangeStart := by
      rcases hp with rfl | rfl <;> rfl
    obtain ⟨b₁, hrange⟩ := readsTo_codeRange r hstart before (rs.flatMap CodeRange.spell ++ rest)
    obtain ⟨p', b₂, hp', hranges⟩ := ih (.inl rfl) b₁
    refine ⟨p', b₂, hp', ?_⟩
    rw [List.flatMap_cons, List.flatMap_cons, List.append_assoc]
    exact hrange.trans hranges

/-- Directly after the opening bracket, what stands for the first range depends on its start. -/
theorem readsTo_leadingRange (r : CodeRange) (hp : p = .start ∨ p = .afterCaret)
    (before rest : List Char) : ∃ p' before', p'.IsAfterMember ∧
      (inBracket .ecmascript ignoreCase ⟨p, {}⟩ ⟨before, r.spell ++ rest⟩).ReadsTo
        r.leadingTokens (inBracket .ecmascript ignoreCase ⟨p', {}⟩ ⟨before', rest⟩) := by
  have hafter : p.after r.first.token =
      if r.StartsWithSign then .afterItem else .afterRangeStart := by
    rcases hp with rfl | rfl <;> rfl
  by_cases hsign : r.StartsWithSign
  · rw [if_pos hsign] at hafter
    rw [CodeRange.leadingTokens, if_pos hsign]
    obtain ⟨before', hmembers⟩ := readsTo_members r hafter before rest
    exact ⟨_, before', .inr rfl, hmembers⟩
  · rw [if_neg hsign] at hafter
    rw [CodeRange.leadingTokens, if_neg hsign]
    obtain ⟨before', hrange⟩ := readsTo_codeRange r hafter before rest
    exact ⟨_, before', .inl rfl, hrange⟩

theorem readsTo_spellAll (ignoreCase : Bool) (r : CodeRange) (rs : List CodeRange) : ∃ before,
    (fresh .ecmascript ignoreCase ⟨[], CodeRange.spellAll (r :: rs)⟩).ReadsTo
      (.ofChar .lBracket '[' :: (r.leadingTokens ++ (rs.flatMap CodeRange.tokens ++
        [.ofChar .rBracket ']'])))
      (fresh .ecmascript ignoreCase ⟨before, []⟩) := by
  let later := rs.flatMap CodeRange.spell ++ [']']
  obtain ⟨p₁, b₁, hp₁, hopening⟩ := readsTo_opening (d := .ecmascript) false [] (r.spell ++ later)
  obtain ⟨p₂, b₂, hp₂, hleading⟩ := readsTo_leadingRange r hp₁ b₁ later
  obtain ⟨p₃, b₃, hp₃, hranges⟩ := readsTo_codeRanges rs hp₂ b₂ [']']
  have hspell : CodeRange.spellAll (r :: rs) = '[' :: ([] ++ (r.spell ++ later)) := by
    simp [CodeRange.spellAll, later]
  rw [hspell]
  exact ⟨_, hopening.trans (hleading.trans (hranges.trans (readsTo_close hp₃ b₃ [])))⟩

end TokenReader

namespace Parser

variable {g : Grammar} {p : Parser}

theorem takeAll_codeRange (r : CodeRange) (s : CharSet) : ∃ s', s.Adds s' r.Holds ∧
    ∀ start us, (p.expect (.bracketItem s start)).takeAll g (r.tokens ++ us) =
      (p.expect (.bracketItem s' none)).takeAll g us := by
  refine takeAll_range s r.le (fun _ => rfl) fun s' hrange => ?_
  simp only [step, expect, rangeEnd, CodeEscape.token, Token.ofChar, pure_bind, hrange]
  rfl

theorem takeAll_codeRanges (rs : List CodeRange) (s : CharSet) (start : Option Char) :
    ∃ s' start', s.Adds s' (fun c => ∃ r ∈ rs, r.Holds c) ∧ ∀ us,
      (p.expect (.bracketItem s start)).takeAll g (rs.flatMap CodeRange.tokens ++ us) =
        (p.expect (.bracketItem s' start')).takeAll g us := by
  induction rs generalizing s start with
  | nil => exact ⟨s, start, by simpa using CharSet.Adds.refl s, fun _ => rfl⟩
  | cons r rs ih =>
    obtain ⟨s₁, hadds₁, hrange⟩ := takeAll_codeRange (g := g) (p := p) r s
    obtain ⟨s₂, start', hadds₂, hranges⟩ := ih s₁ none
    refine ⟨s₂, start', by simpa using hadds₁.trans hadds₂, fun us => ?_⟩
    rw [List.flatMap_cons, List.append_assoc, hrange, hranges]

theorem takeAll_leadingRange (r : CodeRange) (s : CharSet) : ∃ s' start', s.Adds s' r.Leads ∧
    ∀ us, (p.expect (.bracketItem s none)).takeAll g (r.leadingTokens ++ us) =
      (p.expect (.bracketItem s' start')).takeAll g us := by
  by_cases hsign : r.StartsWithSign
  · have hleads : r.Leads = (· ∈ r.members) := funext fun _ => if_pos hsign
    rw [hleads, CodeRange.leadingTokens, if_pos hsign]
    exact takeAll_literals r.members s none
  · have hleads : r.Leads = r.Holds := funext fun _ => if_neg hsign
    rw [hleads, CodeRange.leadingTokens, if_neg hsign]
    obtain ⟨s', hadds, htake⟩ := takeAll_codeRange (g := g) (p := p) r s
    exact ⟨s', none, hadds, htake none⟩

end Parser

variable {flags : Flags}

/-- The set of a bracket expression of ranges whose ends are written as codes. -/
theorem compile_codeRanges_inSet (hdialect : Dialect.ofFlags flags = .ecmascript)
    (hcase : .icase ∉ flags) (r : CodeRange) (rs : List CodeRange) (tag : Nat) : ∃ s : CharSet,
    (∀ c, s.contains c ↔ r.Leads c ∨ ∃ q ∈ rs, q.Holds c) ∧
      compile flags (String.ofList (CodeRange.spellAll (r :: rs))) tag =
        .ok ((Pattern.satisfying (.inSet s)).matcher tag) := by
  have hplain : flags.contains .icase = false := by simpa using hcase
  let empty : CharSet := { ignoreCase := (Grammar.ofFlags flags).ignoreCase }
  have hopening (us : List Token) :
      Parser.takeAll (.ofFlags flags) {} (.ofChar .lBracket '[' :: us) =
        (Parser.expect {} (.bracketItem empty none)).takeAll (.ofFlags flags) us :=
    Parser.takeAll_cons rfl
  obtain ⟨before, hreads⟩ := TokenReader.readsTo_spellAll (flags.contains .icase) r rs
  obtain ⟨s₁, start₁, hadds₁, hleading⟩ :=
    Parser.takeAll_leadingRange (g := .ofFlags flags) (p := {}) r empty
  obtain ⟨s₂, start₂, hadds₂, hranges⟩ :=
    Parser.takeAll_codeRanges (g := .ofFlags flags) (p := {}) rs s₁ start₁
  have hadds := hadds₁.trans hadds₂
  rw [← hdialect, ← TokenReader.ofPattern_ofList] at hreads
  have htake : Parser.takeAll (.ofFlags flags) {} (.ofChar .lBracket '[' :: (r.leadingTokens ++
      (rs.flatMap CodeRange.tokens ++ [.ofChar .rBracket ']']))) =
        .ok (Parser.push {} (.satisfying (.inSet s₂))) := by
    rw [hopening, hleading, hranges]
    exact Parser.takeAll_cons rfl
  refine ⟨s₂, fun c => ?_, compile_of_readsTo hreads rfl htake rfl tag⟩
  have hignore : s₂.ignoreCase = false := hadds.ignoreCase.trans hplain
  have hnegated : s₂.negated = false := hadds.negated
  have hempty : empty.lists c = false := rfl
  simp [CharSet.contains, hignore, hnegated, hadds.lists, hempty]

/-- A character written as a code is an end of a range like any other, except where the start of the
first range is a closing bracket or a dash: then there is no range, and its ends and the dash are
listed one by one. -/
theorem compile_codeRanges (hdialect : Dialect.ofFlags flags = .ecmascript) (hcase : .icase ∉ flags)
    (r : CodeRange) (rs : List CodeRange) (tag : Nat) :
    ∃ m, compile flags (String.ofList (CodeRange.spellAll (r :: rs))) tag = .ok m ∧
      ∀ input, m.1.accepts input ↔ ∃ c, input = [c] ∧
        if r.StartsWithSign then c ∈ r.members ∨ ∃ q ∈ rs, q.Holds c
        else ∃ q ∈ r :: rs, q.Holds c := by
  obtain ⟨s, hcontains, hcompile⟩ := compile_codeRanges_inSet hdialect hcase r rs tag
  refine ⟨_, hcompile, fun input => ?_⟩
  rw [accepts_inSet]
  refine exists_congr fun c => and_congr_right fun _ => ?_
  rw [hcontains, CodeRange.Leads]
  split <;> simp

theorem accepts_behind_closing_code :
    ∃ m, compile [.ecmascript] "[\\u005D-\\u0060\\u0061-\\u0063]" = .ok m ∧
      m.1.accepts ['b'] ∧ ¬ m.1.accepts ['^'] := by
  let r : CodeRange := ⟨.ofChar ']' (by decide), .ofChar '`' (by decide), by decide⟩
  let q : CodeRange := ⟨.ofChar 'a' (by decide), .ofChar 'c' (by decide), by decide⟩
  have hcase : Flag.icase ∉ [Flag.ecmascript] := by decide
  obtain ⟨m, hm, haccepts⟩ := compile_codeRanges rfl hcase r [q] 0
  have hsign : r.StartsWithSign := .inl rfl
  have hletter : q.Holds 'b' := ⟨by decide, by decide⟩
  have hcaret : '^' ∉ r.members ∧ ¬ q.Holds '^' := ⟨by decide, fun h => absurd h.1 (by decide)⟩
  simp only [if_pos hsign, List.mem_singleton, exists_eq_left] at haccepts
  refine ⟨m, hm, (haccepts _).mpr ⟨'b', rfl, .inr hletter⟩, fun h => ?_⟩
  obtain ⟨c, hc, hlisted⟩ := (haccepts _).mp h
  cases hc
  exact hlisted.elim hcaret.1 hcaret.2

/-- An end of a range that is written as a code is not always taken for one. -/
theorem not_holds_closing_code :
    ¬ ∀ flags : Flags, Dialect.ofFlags flags = .ecmascript → .icase ∉ flags →
      ∀ rs : List CodeRange, rs ≠ [] →
        ∃ m, compile flags (String.ofList (CodeRange.spellAll rs)) = .ok m ∧
          ∀ input, m.1.accepts input ↔ ∃ c, input = [c] ∧ ∃ r ∈ rs, r.Holds c := by
  intro hall
  let r : CodeRange := ⟨.ofChar ']' (by decide), .ofChar '`' (by decide), by decide⟩
  have hcase : Flag.icase ∉ [Flag.ecmascript] := by decide
  obtain ⟨s, hcontains, hcompile⟩ := compile_codeRanges_inSet rfl hcase r [] 0
  obtain ⟨m, hm, haccepts⟩ := hall [.ecmascript] rfl hcase [r] (List.cons_ne_nil _ _)
  rw [hcompile] at hm
  cases hm
  have hholds : r.Holds '^' := ⟨by decide, by decide⟩
  have haccepted := (haccepts ['^']).mpr ⟨'^', rfl, r, List.mem_singleton_self r, hholds⟩
  obtain ⟨c, hc, hlisted⟩ := (accepts_inSet s 0 _).mp haccepted
  cases hc
  have hleads : ¬ r.Leads '^' := by
    rw [CodeRange.Leads, if_pos (.inl rfl)]
    decide
  rcases (hcontains _).mp hlisted with h | ⟨q, hq, -⟩
  · exact hleads h
  · exact List.not_mem_nil hq

end IncrementalRegex
