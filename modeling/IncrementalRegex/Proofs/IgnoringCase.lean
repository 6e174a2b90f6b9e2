import IncrementalRegex.Proofs.Brackets
import IncrementalRegex.Proofs.Denotation
import IncrementalRegex.Proofs.Folding
import IncrementalRegex.Regex

namespace IncrementalRegex

/-- Every word of `L` over the characters in `C` has its fold in `L'`. -/
def Carries (C : Char → Prop) (L L' : Language Char) : Prop :=
  ∀ w ∈ L, (∀ c ∈ w, C c) → w.map foldCase ∈ L'

section

variable {C : Char → Prop} {L L' M M' : Language Char}

theorem Carries.zero : Carries C 0 0 := fun w hw => absurd hw (Language.notMem_zero w)

theorem Carries.one : Carries C 1 1 := by
  intro w hw _
  rw [Language.mem_one] at hw
  rw [hw]
  exact Language.nil_mem_one

theorem Carries.mul (h : Carries C L L') (h' : Carries C M M') : Carries C (L * M) (L' * M') := by
  intro w hw hC
  obtain ⟨u, hu, v, hv, rfl⟩ := Language.mem_mul.mp hw
  rw [List.forall_mem_append] at hC
  rw [List.map_append]
  exact Language.mem_mul.mpr ⟨_, h u hu hC.1, _, h' v hv hC.2, rfl⟩

theorem Carries.pow (h : Carries C L L') (k : Nat) : Carries C (L ^ k) (L' ^ k) := by
  induction k with
  | zero => exact .one
  | succ k ih =>
    rw [pow_succ, pow_succ]
    exact ih.mul h

theorem Carries.add (h : Carries C L L') (h' : Carries C M M') : Carries C (L + M) (L' + M') := by
  intro w hw hC
  rcases Language.mem_add .. |>.mp hw with hw | hw
  · exact (Language.mem_add ..).mpr (.inl (h w hw hC))
  · exact (Language.mem_add ..).mpr (.inr (h' w hw hC))

end

/-- Every character of `C` that passes also passes without regard to case, once it is folded. -/
def CharTest.Keeps (C : Char → Prop) (t : CharTest) : Prop :=
  ∀ c, C c → passes t c → passes t.folded (foldCase c)

namespace Pattern

variable {C : Char → Prop}

/-- All tests of a pattern keep the characters of `C`. -/
inductive Keeps (C : Char → Prop) : Pattern → Prop where
  | one (c : Char) : Keeps C (one c)
  | text (cs : List Char) : Keeps C (text cs)
  | any : Keeps C any
  | satisfying {t : CharTest} (h : t.Keeps C) : Keeps C (satisfying t)
  | concat {ps : List Pattern} (parts : ∀ p ∈ ps, Keeps C p) : Keeps C (concat ps)
  | either {ps : List Pattern} (parts : ∀ p ∈ ps, Keeps C p) : Keeps C (either ps)
  | repeated {p : Pattern} (b : Bounds) (part : Keeps C p) : Keeps C (repeated p b)

theorem carries_product {ps : List Pattern}
    (h : ∀ p ∈ ps, Carries C p.language p.folded.language) :
    Carries C (product ps) (product (allFolded ps)) := by
  induction ps with
  | nil => exact .one
  | cons p ps ih =>
    rw [List.forall_mem_cons] at h
    exact h.1.mul (ih h.2)

theorem carries_union {ps : List Pattern}
    (h : ∀ p ∈ ps, Carries C p.language p.folded.language) :
    Carries C (union ps) (union (allFolded ps)) := by
  induction ps with
  | nil => exact .zero
  | cons p ps ih =>
    rw [List.forall_mem_cons] at h
    exact h.1.add (ih h.2)

/-- If all its tests keep the characters of a word, the folded pattern denotes the folded word. -/
theorem Keeps.carries {p : Pattern} (h : p.Keeps C) : Carries C p.language p.folded.language := by
  induction h with
  | one c =>
    rintro w rfl -
    rfl
  | text cs =>
    rintro w rfl -
    rfl
  | any =>
    rintro w ⟨c, rfl⟩ -
    exact ⟨foldCase c, rfl⟩
  | satisfying h =>
    rintro w ⟨c, hc, rfl⟩ hC
    exact ⟨foldCase c, h c (hC c List.mem_cons_self) hc, rfl⟩
  | concat _ ih => exact carries_product ih
  | either _ ih => exact carries_union ih
  | repeated b _ ih =>
    rintro w ⟨k, hk, hw⟩ hC
    exact ⟨k, hk, ih.pow k w hw hC⟩

theorem keeps_ofText (cs : List Char) : (ofText cs).Keeps C := by
  unfold ofText
  split
  · exact .one _
  · exact .text _

end Pattern

/-- Nothing is asked for that is outside of a set or class. -/
structure Token.IsPositive (t : Token) : Prop where
  negation : t.kind ≠ .negation
  charClass : t.kind = .charClass → t.char ∉ ['D', 'S', 'W']

/-- The set asks for its members alone, and all that it may be asked for can be recovered. -/
structure CharSet.Keeps (C : Char → Prop) (s : CharSet) : Prop where
  ignoreCase : s.ignoreCase = false
  negated : s.negated = false
  recoverable : ∀ c, C c → Recoverable c

/-- The set that is being read. -/
def Expecting.set? : Expecting → Option CharSet
  | bracketItem s _ | rangeEnd s _ => some s
  | _ => none

namespace Parser

/-- All that has been read keeps the characters of `C`. -/
structure Keeps (C : Char → Prop) (p : Parser) : Prop where
  group : p.group.All (Pattern.Keeps C)
  outer : ∀ g ∈ p.outer, g.All (Pattern.Keeps C)
  set : ∀ s ∈ p.expecting.set?, s.Keeps C

variable {C : Char → Prop} {g : Grammar} {p p' : Parser} {t : Token}

theorem keeps_charClass (d : Dialect) {letter : Char} (h : letter ∉ ['D', 'S', 'W']) :
    (charClass d letter).Keeps C := by
  unfold charClass
  cases hk : CharClass.ofEscape? letter with
  | some p =>
    obtain ⟨k, outside⟩ := p
    have hinside : outside = false := by
      unfold CharClass.ofEscape? at hk
      split at hk <;> cases hk <;> simp_all
    subst hinside
    refine .satisfying fun c _ hc => ?_
    have hcontains : k.contains c := by simpa [ItemTest.passes] using hc
    simpa [ItemTest.passes, CharTest.folded] using CharClass.contains_foldCase hk hcontains
  | none =>
    dsimp only
    split_ifs
    · refine .satisfying fun c _ hc => ?_
      have hline : isLineEnd c = false := by simpa [ItemTest.passes] using hc
      simpa [ItemTest.passes, CharTest.folded] using isLineEnd_foldCase hline
    · exact .any

theorem Keeps.push (hp : p.Keeps C) {e : Pattern} (he : e.Keeps C) : (p.push e).Keeps C :=
  ⟨hp.group.push he, hp.outer, fun _ hs => by cases hs⟩

theorem Keeps.expect (hp : p.Keeps C) {e : Expecting} (he : ∀ s ∈ e.set?, s.Keeps C) :
    (p.expect e).Keeps C :=
  ⟨hp.group, hp.outer, he⟩

theorem OnElement.keeps (h : p.OnElement g t p') (hp : p.Keeps C) (hg : g.ignoreCase = false)
    (ht : t.IsPositive) (hC : t.kind = .lBracket → ∀ c, C c → Recoverable c) : p'.Keeps C := by
  cases h with
  | text => exact hp.push (Pattern.keeps_ofText _)
  | literal | caret => exact hp.push (.one _)
  | charClass kind => exact hp.push (keeps_charClass _ (ht.charClass kind))
  | openGroup =>
    have houter := List.forall_mem_cons.mpr ⟨hp.group, hp.outer⟩
    exact ⟨Group.all_empty _, houter, fun _ hs => by cases hs⟩
  | closeGroup _ opened =>
    have houter := hp.outer
    rw [opened, List.forall_mem_cons] at houter
    exact ⟨houter.1.push (hp.group.pattern (fun _ => .concat) fun _ => .either), houter.2,
      fun _ hs => by cases hs⟩
  | openBracket kind =>
    refine hp.expect fun s hs => ?_
    cases hs
    exact ⟨hg, rfl, hC kind⟩
  | alternation =>
    exact ⟨hp.group.closeBranch fun _ => .concat, hp.outer, fun _ hs => by cases hs⟩
  | leadingStar | repetition | dollar => exact hp.expect fun _ hs => by cases hs

theorem OnUpperBound.keeps {lower : Nat} (h : p.OnUpperBound lower t p') (hp : p.Keeps C) :
    p'.Keeps C := by
  cases h with
  | star => exact hp.push (.one _)
  | repeated _ _ last =>
    have hbranch := hp.group.branch
    rw [last, List.forall_mem_cons] at hbranch
    exact ⟨⟨hp.group.branches, List.forall_mem_cons.mpr ⟨.repeated _ hbranch.1, hbranch.2⟩⟩,
      hp.outer, fun _ hs => by cases hs⟩

/-- Whatever is added to a set, what is asked of it stays the same. -/
theorem OnItem.keeps {s : CharSet} {r : Option Char} (h : p.OnItem s r t p') (hp : p.Keeps C)
    (ht : t.IsPositive) (hs : s.Keeps C) : p'.Keeps C := by
  have hnext {e : Expecting} (he : ∀ s' ∈ e.set?,
      s'.ignoreCase = s.ignoreCase ∧ s'.negated = s.negated) : (p.expect e).Keeps C := by
    refine hp.expect fun s' hs' => ?_
    obtain ⟨hcase, hnegated⟩ := he s' hs'
    exact ⟨hcase.trans hs.ignoreCase, hnegated.trans hs.negated, hs.recoverable⟩
  cases h with
  | close =>
    refine hp.push (.satisfying fun c hc hlists => ?_)
    exact CharSet.contains_foldCase hs.ignoreCase hs.negated (hs.recoverable c hc) hlists
  | negate kind => exact absurd kind ht.negation
  | char | collate | equiv | named | escape | dash =>
    exact hnext fun s' hs' => by cases hs'; exact ⟨rfl, rfl⟩

theorem OnRangeEnd.keeps {s : CharSet} {start : Char} (h : p.OnRangeEnd s start t p')
    (hp : p.Keeps C) (hs : s.Keeps C) : p'.Keeps C := by
  have hrange {last : Char} {s' : CharSet} (range : s.addRange start last = .ok s') :
      s'.Keeps C := by
    unfold CharSet.addRange at range
    split_ifs at range
    cases range
    exact ⟨hs.ignoreCase, hs.negated, hs.recoverable⟩
  cases h with
  | char _ range | collate _ _ range =>
    exact hp.expect fun s' hs' => by cases hs'; exact hrange range

theorem OnToken.keeps (h : p.OnToken g t p') (hp : p.Keeps C) (hg : g.ignoreCase = false)
    (ht : t.IsPositive) (hC : t.kind = .lBracket → ∀ c, C c → Recoverable c) : p'.Keeps C := by
  have hset := hp.set
  cases h with
  | element _ h | groupStart _ h => exact h.keeps hp hg ht hC
  | qualifier => exact hp.expect fun _ hs => by cases hs
  | afterDollar _ _ h => exact h.keeps (hp.push (.one '$')) hg ht hC
  | upperBound _ h => exact h.keeps hp
  | @item s _ _ context h =>
    rw [context] at hset
    exact h.keeps hp ht (hset s rfl)
  | @rangeEnd s _ _ context h =>
    rw [context] at hset
    exact h.keeps hp (hset s rfl)

end Parser

variable {C : Char → Prop}

/-- Whether brackets are read. -/
def TokenReader.HasBracket (s : TokenReader) : Prop := ∃ t ∈ s.tokens, t.kind = .lBracket

theorem Spells.keeps {g : Grammar} {s : TokenReader} {p : Parser} {pattern : Pattern}
    (h : Spells g s p pattern) (hp : p.Keeps C) (hg : g.ignoreCase = false)
    (ht : ∀ t ∈ s.tokens, t.IsPositive)
    (hC : s.HasBracket → ∀ c, C c → Recoverable c) : pattern.Keeps C := by
  induction h with
  | done _ finish =>
    obtain ⟨-, -, rfl⟩ := Parser.finish_eq_ok_iff.mp finish
    exact hp.group.pattern (fun _ => .concat) fun _ => .either
  | step read take _ ih =>
    rw [TokenReader.HasBracket] at hC
    rw [TokenReader.tokens_of_token read] at ht hC
    simp only [List.forall_mem_cons, List.exists_mem_cons_iff] at ht hC
    have hkeeps := (Parser.step_eq_ok_iff.mp take).keeps hp hg ht.1 fun hk => hC (.inl hk)
    exact ih hkeeps ht.2 fun hb => hC (.inr hb)

namespace Regex

variable {flags : Flags} {pattern : String}

theorem isMatch_iff_of_spells {p : Pattern} {r : Regex} (hr : ofPattern flags pattern = .ok r)
    (h : Spells (.ofFlags flags) (.ofPattern flags pattern) {} p) (text : List Char) :
    r.isMatch text ↔ text.map (foldIf (flags.contains .icase)) ∈ p.language := by
  have hm : compile flags pattern = .ok (p.matcher 0) := compile_eq_ok_iff.mpr ⟨p, h, rfl⟩
  rw [ofPattern, hm] at hr
  cases hr
  rw [isMatch, Matcher.accepts_iff_of_built (built_of_compile hm), Pattern.language_matcher]
  rfl

/-- What matches as it is also matches without regard to case, if all that brackets are asked for
can be recovered. -/
theorem exists_icase (hcase : .icase ∉ flags) {r : Regex} (h : ofPattern flags pattern = .ok r)
    (ht : ∀ t ∈ (TokenReader.ofPattern flags pattern).tokens, t.IsPositive) :
    ∃ r', ofPattern (.icase :: flags) pattern = .ok r' ∧ ∀ text,
      ((TokenReader.ofPattern flags pattern).HasBracket → ∀ c ∈ text, Recoverable c) →
        r.isMatch text → r'.isMatch text := by
  obtain ⟨m, hm, -⟩ := map_eq_ok.mp h
  obtain ⟨p, hspells, -⟩ := compile_eq_ok_iff.mp hm
  have hfolded := spells_icase hcase hspells
  have hplain : flags.contains .icase = false := by simpa using hcase
  have hr' : ofPattern (.icase :: flags) pattern = .ok _ :=
    map_eq_ok.mpr ⟨_, compile_eq_ok_iff.mpr ⟨_, hfolded, rfl⟩, rfl⟩
  refine ⟨_, hr', fun text hC hmatch => ?_⟩
  have hstart : Parser.Keeps (· ∈ text) {} :=
    ⟨Group.all_empty _, List.forall_mem_nil _, fun _ hs => by cases hs⟩
  have hcarries := (hspells.keeps hstart hplain ht hC).carries
  rw [isMatch_iff_of_spells h hspells, hplain, foldIf_false, List.map_id] at hmatch
  rw [isMatch_iff_of_spells hr' hfolded]
  exact hcarries text hmatch fun _ hc => hc

/-- Characters with a meaning in brackets are no letters. -/
theorem notMem_of_not_recoverable {c : Char} (h : ¬ Recoverable c) :
    c ∉ [']', '[', '^', '-', '\\'] := by
  intro hc
  simp only [List.mem_cons, List.not_mem_nil, or_false] at hc
  rcases hc with rfl | rfl | rfl | rfl | rfl <;> exact h (by decide)

/-- The bracket expression that lists a single character. -/
def bracketed (c : Char) (h : ¬ Recoverable c) : BracketList :=
  ⟨false, none, [.mark (.plain c (notMem_of_not_recoverable h))], false, .inr (.inl (by simp))⟩

/-- Its character is lost when case is ignored. -/
theorem isMatch_bracketed {c : Char} (h : ¬ Recoverable c) (flags : Flags) :
    ∃ r, ofPattern flags (String.ofList (bracketed c h).spell) = .ok r ∧
      (r.isMatch [c] ↔ .icase ∉ flags) := by
  obtain ⟨s, hignore, hnegated, hlists, hm⟩ := compile_inSet flags (bracketed c h) 0
  have hpositive : s.negated = false := hnegated
  have hsingle (e : Char) : s.lists e ↔ e = c := by
    rw [hlists]
    simp [bracketed, BracketList.Lists, BracketItem.Lists, BracketMark.char]
  refine ⟨_, map_eq_ok.mpr ⟨_, hm, rfl⟩, ?_⟩
  rw [isMatch, accepts_inSet]
  simp only [List.map_cons, List.map_nil, List.cons.injEq, and_true, exists_eq_left', seen]
  by_cases hcase : .icase ∈ flags
  · have hfold : flags.contains .icase = true := by simpa using hcase
    rw [hfold] at hignore ⊢
    rw [foldIf_true, CharSet.contains_foldCase_iff hignore hpositive hsingle]
    exact iff_of_false h (not_not_intro hcase)
  · have hplain : flags.contains .icase = false := by simpa using hcase
    rw [hplain] at hignore ⊢
    rw [foldIf_false, id, CharSet.contains, hignore, hpositive, Bool.false_and, Bool.or_false,
      Bool.bne_false]
    exact iff_of_true ((hsingle c).mpr rfl) hcase

theorem isPositive_bracketed {c : Char} (h : ¬ Recoverable c) (flags : Flags) :
    ∀ t ∈ (TokenReader.ofPattern flags (String.ofList (bracketed c h).spell)).tokens,
      t.IsPositive := by
  obtain ⟨before, hreads⟩ := TokenReader.readsTo_ofPattern flags (bracketed c h)
  have hend := TokenReader.stream_of_end (s := .fresh (.ofFlags flags) (flags.contains .icase)
    ⟨before, []⟩) rfl
  rw [hreads.tokens_eq, TokenReader.tokens, hend, List.map_nil, List.append_nil]
  have htokens : (bracketed c h).tokens =
      [.ofChar .lBracket '[', .ofChar .bracketLiteral c, .ofChar .rBracket ']'] := rfl
  rw [htokens]
  intro t ht
  simp only [List.mem_cons, List.not_mem_nil, or_false] at ht
  rcases ht with rfl | rfl | rfl <;> constructor <;> intro hk <;> cases hk

/-- Ignoring case loses no match, where brackets are asked for nothing but the characters of `C`,
exactly if all of these can be recovered. -/
theorem isMatch_icase_iff (C : Char → Prop) :
    (∀ flags pattern r, .icase ∉ flags →
      (∀ t ∈ (TokenReader.ofPattern flags pattern).tokens, t.IsPositive) →
      ofPattern flags pattern = .ok r → ∃ r', ofPattern (.icase :: flags) pattern = .ok r' ∧
        ∀ text, ((TokenReader.ofPattern flags pattern).HasBracket → ∀ c ∈ text, C c) →
          r.isMatch text → r'.isMatch text) ↔
    ∀ c, C c → Recoverable c := by
  constructor
  · intro h c hC
    by_contra hc
    obtain ⟨r, hr, hmatch⟩ := isMatch_bracketed hc []
    obtain ⟨r', hr', hlost⟩ := isMatch_bracketed hc [.icase]
    obtain ⟨r'', hr'', hkept⟩ := h [] _ r List.not_mem_nil (isPositive_bracketed hc []) hr
    cases hr'.symm.trans hr''
    have hsingle : ∀ e ∈ [c], C e := List.forall_mem_singleton.mpr hC
    have hlast := hkept [c] (fun _ => hsingle) (hmatch.mpr List.not_mem_nil)
    exact hlost.mp hlast List.mem_cons_self
  · intro hC flags pattern r hcase ht h
    obtain ⟨r', hr', hkept⟩ := exists_icase hcase h ht
    exact ⟨r', hr', fun text hb => hkept text fun hbracket c hc => hC c (hb hbracket c hc)⟩

/-- The final sigma is folded to the capital letter, which leads back to the other small sigma. -/
theorem not_isMatch_finalSigma : ¬ ∀ flags pattern r text, .icase ∉ flags →
    (∀ t ∈ (TokenReader.ofPattern flags pattern).tokens, t.IsPositive) →
    ofPattern flags pattern = .ok r → r.isMatch text →
    ∃ r', ofPattern (.icase :: flags) pattern = .ok r' ∧ r'.isMatch text := by
  have hsigma : ¬ Recoverable 'ς' := by decide +kernel
  have hcase : Flag.icase ∉ [Flag.extended] := by decide
  obtain ⟨r, hr, hmatch⟩ := isMatch_bracketed hsigma [.extended]
  obtain ⟨r', hr', hlost⟩ := isMatch_bracketed hsigma [.icase, .extended]
  intro h
  obtain ⟨r'', hr'', hkept⟩ := h _ _ r ['ς'] hcase (isPositive_bracketed hsigma _) hr
    (hmatch.mpr hcase)
  cases hr'.symm.trans hr''
  exact hlost.mp hkept List.mem_cons_self

end Regex

end IncrementalRegex
