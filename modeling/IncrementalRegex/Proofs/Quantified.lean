import IncrementalRegex.Proofs.Denotation
import IncrementalRegex.Proofs.Quoting

namespace IncrementalRegex

/-- What stands for itself in every dialect, without a backslash before it. -/
def Ordinary (c : Char) : Prop := c ≠ '\n' ∧ c ∉ Dialect.extended.specials

instance (c : Char) : Decidable (Ordinary c) := inferInstanceAs (Decidable (_ ∧ _))

variable {d : Dialect} {ignoreCase : Bool} {b : Bounds} {sign rest w v : List Char}
  {c x : Char}

theorem Ordinary.notMem_specials (h : Ordinary c) : c ∉ d.specials := by
  have hextended : d.specials ⊆ Dialect.extended.specials := by cases d <;> decide
  exact fun hc => h.2 (hextended hc)

theorem quotable_of_ordinary (h : ∀ x ∈ w, Ordinary x) : d.Quotable w where
  newline _ hw := (h _ hw).1 rfl
  brace _ hw := (h _ hw).2 (by decide)

theorem quote_of_notMem (h : ∀ x ∈ w, x ∉ d.specials) : d.quote w = w := by
  have hquote : ∀ x ∈ w, d.quoteChar x = [x] := fun x hx => if_neg (h x hx)
  rw [Dialect.quote, List.flatMap_congr hquote, List.flatMap_singleton']

theorem quote_of_ordinary (h : ∀ x ∈ w, Ordinary x) : d.quote w = w :=
  quote_of_notMem fun x hx => (h x hx).notMem_specials

/-- A run of ordinary characters ends before a quantifier. -/
theorem ExpressionReader.ordinaryRun_quantifier (h : d.Quantifies ignoreCase sign rest x b)
    (before : List Char) : ordinaryRun (.expression d ignoreCase) ⟨before, sign ++ rest⟩ =
      .ok ([], true, ⟨before, sign ++ rest⟩) := by
  obtain ⟨kind, c, -, hkind, hread, -⟩ := h before
  rw [ordinaryRun_of_sign hread] <;> rcases hkind with rfl | rfl <;> rfl

namespace TokenReader

/-- A quoted text before a quantifier is read up to its last character, which is a token of its
own. -/
theorem readsTo_quantified (hw : d.Quotable w) (hc : d.Quotable [c])
    (hsign : d.Quantifies ignoreCase sign rest x b) (before : List Char) : ∃ before',
    (fresh d ignoreCase ⟨before, d.quote w ++ (d.quoteChar c ++ (sign ++ rest))⟩).ReadsTo
      (quoteTokens (w.map (foldIf ignoreCase)) ++
        .ofChar .literal (foldIf ignoreCase c) :: b.tokens x)
      (fresh d ignoreCase ⟨before', rest⟩) := by
  let r : ExpressionReader := { dialect := d, ignoreCase := ignoreCase }
  cases w with
  | nil =>
    obtain ⟨b₁, hfirst⟩ := Lexicon.read_quoteChar ignoreCase hc before (sign ++ rest)
    obtain ⟨before', hbounds⟩ := readsTo_quantifier hsign b₁
    have hsingle : r.Reads ⟨before, d.quoteChar c ++ (sign ++ rest)⟩ _ r _ :=
      .single rfl hfirst rfl (ExpressionReader.ordinaryRun_quantifier hsign b₁)
    exact ⟨before', .step (read_of_reads hsingle (by simp [Token.ofChar])) hbounds⟩
  | cons y w =>
    obtain ⟨hy, hw⟩ := hw.of_cons
    obtain ⟨b₁, hfirst⟩ := Lexicon.read_quoteChar ignoreCase hy before
      (d.quote w ++ (d.quoteChar c ++ (sign ++ rest)))
    have hlast (before : List Char) : ∃ before', ExpressionReader.ordinaryRun
        (.expression d ignoreCase) ⟨before, d.quoteChar c ++ (sign ++ rest)⟩ =
        .ok ([foldIf ignoreCase c], true, ⟨before', sign ++ rest⟩) := by
      obtain ⟨b₂, hread⟩ := Lexicon.read_quoteChar ignoreCase hc before (sign ++ rest)
      exact ⟨b₂, ExpressionReader.ordinaryRun_of_literal hread rfl
        (ExpressionReader.ordinaryRun_quantifier hsign b₂)⟩
    obtain ⟨b₃, hlater⟩ := ExpressionReader.ordinaryRun_quote ignoreCase hlast hw b₁
    obtain ⟨before', hbounds⟩ := readsTo_quantifier hsign b₃
    let first : Token := .ofString .stringLiteral ((y :: w).map (foldIf ignoreCase))
    let last : Token := .ofChar .literal (foldIf ignoreCase c)
    have hcut : r.Reads ⟨before, d.quote (y :: w) ++ (d.quoteChar c ++ (sign ++ rest))⟩ first
        { r with pending := r.pending.push last } ⟨b₃, sign ++ rest⟩ := by
      rw [Dialect.quote, List.flatMap_cons, List.append_assoc]
      exact .cut (t := .ofChar .literal (foldIf ignoreCase y)) rfl hfirst rfl hlater
    have hknown : { r with pending := r.pending.push last : ExpressionReader}.Reads
        ⟨b₃, sign ++ rest⟩ last r ⟨b₃, sign ++ rest⟩ := .known rfl
    exact ⟨before', .step (read_of_reads hcut (by simp [Token.ofString]))
      (.step (read_of_reads hknown (by simp [Token.ofChar])) hbounds)⟩

end TokenReader

/-- A text that is not empty is one element. -/
def quoteParts : List Char → List Pattern
  | [] => []
  | c :: cs => [.ofText (c :: cs)]

theorem mem_product_quoteParts {s : List Char} : s ∈ Pattern.product (quoteParts w) ↔ s = w := by
  cases w with
  | nil => exact Language.mem_one s
  | cons c w =>
    rw [quoteParts, Pattern.product, Pattern.product, mul_one, Pattern.mem_language_ofText]

/-- The pattern of a repeated character between texts. -/
def quantifiedPattern (w : List Char) (c : Char) (b : Bounds) (v : List Char) : Pattern :=
  .join .concat (quoteParts w ++ (.repeated (.one c) b :: quoteParts v))

theorem mem_language_quantifiedPattern {s : List Char} :
    s ∈ (quantifiedPattern w c b v).language ↔
      ∃ k, b.Allows k ∧ s = w ++ List.replicate k c ++ v := by
  rw [quantifiedPattern, Pattern.language_join_concat, Pattern.product_append, Pattern.product]
  simp only [Language.mem_mul, mem_product_quoteParts, Pattern.mem_language_repeated_one]
  constructor
  · rintro ⟨_, rfl, _, ⟨_, ⟨k, hk, rfl⟩, _, rfl, rfl⟩, rfl⟩
    exact ⟨k, hk, (List.append_assoc ..).symm⟩
  · rintro ⟨k, hk, rfl⟩
    exact ⟨w, rfl, _, ⟨_, ⟨k, hk, rfl⟩, v, rfl, rfl⟩, (List.append_assoc ..).symm⟩

namespace Parser

variable {g : Grammar}

theorem takeAll_quantified : ∃ last,
    takeAll g {} (quoteTokens w ++ (.ofChar .literal c :: b.tokens x) ++ quoteTokens v) =
      .ok last ∧ last.finish = .ok (quantifiedPattern w c b v) := by
  have hbefore : takeAll g {} (quoteTokens w) = .ok (behind (quoteParts w)) := by
    cases w <;> rfl
  have hone : (behind (quoteParts w)).step g (.ofChar .literal c) =
      .ok (behind (.one c :: quoteParts w)) := rfl
  let repeated : Parser :=
    { behind (.repeated (.one c) b :: quoteParts w) with stacked := 1 }
  have hbehind : ∃ last, repeated.takeAll g (quoteTokens v) = .ok last ∧
      last.finish = .ok (quantifiedPattern w c b v) := by
    cases w <;> cases v <;> exact ⟨_, rfl, rfl⟩
  obtain ⟨last, hlast, hfinish⟩ := hbehind
  refine ⟨last, ?_, hfinish⟩
  rw [takeAll_append, takeAll_append, hbefore]
  change ((behind (quoteParts w)).takeAll g _ >>= _) = _
  rw [takeAll_cons hone, takeAll_bounds]
  exact hlast

end Parser

variable {flags : Flags}

theorem compile_quantified (hw : (Dialect.ofFlags flags).Quotable w)
    (hc : (Dialect.ofFlags flags).Quotable [c]) (hv : (Dialect.ofFlags flags).Quotable v)
    (hsign : (Dialect.ofFlags flags).Quantifies (flags.contains .icase) sign
      ((Dialect.ofFlags flags).quote v) x b) (tag : Nat) :
    let d := Dialect.ofFlags flags
    let fold := foldIf (flags.contains .icase)
    ∃ m, compile flags
        (String.ofList (d.quote w ++ (d.quoteChar c ++ (sign ++ d.quote v)))) tag = .ok m ∧
      ∀ s, m.1.accepts s ↔
        ∃ k, b.Allows k ∧ s = w.map fold ++ List.replicate k (fold c) ++ v.map fold := by
  intro d fold
  obtain ⟨before, hreads⟩ := TokenReader.readsTo_quantified hw hc hsign []
  obtain ⟨before', hbehind⟩ := TokenReader.readsTo_quote (flags.contains .icase) hv before
  have hall := hreads.trans hbehind
  rw [← TokenReader.ofPattern_ofList] at hall
  obtain ⟨last, htake, hfinish⟩ := Parser.takeAll_quantified (g := .ofFlags flags) (b := b)
    (w := w.map fold) (c := fold c) (v := v.map fold) (x := x)
  have hcompile := compile_of_readsTo hall rfl htake hfinish tag
  refine ⟨_, hcompile, fun s => ?_⟩
  rw [accepts_iff_of_compile hcompile, mem_language_quantifiedPattern]

/-- With the quantifier behind `c` a text is compiled to what accepts `c` so often between `w` and
`v` as is counted. -/
def RepeatsLast (flags : Flags) (tag : Nat) (w : List Char) (c : Char) (v : List Char)
    (quantifier : String) (counted : Nat → Prop) : Prop :=
  ∃ m, compile flags (String.ofList (w ++ [c]) ++ quantifier ++ String.ofList v) tag = .ok m ∧
    ∀ s, m.1.accepts s ↔ ∃ k, counted k ∧ s = w ++ List.replicate k c ++ v

theorem repeatsLast_of_quantifies (hcase : .icase ∉ flags) (hw : ∀ x ∈ w, Ordinary x)
    (hc : Ordinary c) (hv : ∀ x ∈ v, Ordinary x) {quantifier : String}
    (h : (Dialect.ofFlags flags).Quantifies false quantifier.toList v x b)
    {counted : Nat → Prop} (hcounted : ∀ k, b.Allows k ↔ counted k) (tag : Nat) :
    RepeatsLast flags tag w c v quantifier counted := by
  have hplain : flags.contains .icase = false := by simpa using hcase
  have hone : ∀ x ∈ [c], Ordinary x := by simpa using hc
  rw [← hplain, ← quote_of_ordinary hv] at h
  obtain ⟨m, hcompile, haccepts⟩ := compile_quantified (quotable_of_ordinary hw)
    (quotable_of_ordinary hone) (quotable_of_ordinary hv) h tag
  have hlast : (Dialect.ofFlags flags).quoteChar c = [c] := if_neg hc.notMem_specials
  refine ⟨m, ?_, fun s => ?_⟩
  · have htext : String.ofList (w ++ [c]) ++ quantifier ++ String.ofList v =
        String.ofList (w ++ ([c] ++ (quantifier.toList ++ v))) := by
      apply String.toList_injective
      simp
    rw [quote_of_ordinary hw, hlast, quote_of_ordinary hv] at hcompile
    rw [htext, hcompile]
  · rw [haccepts, hplain]
    simp only [foldIf_false, List.map_id, hcounted, id_eq]

/-- A quantifier behind ordinary characters applies to the last of them alone. -/
theorem repeatsLast_of_ordinary (hcase : .icase ∉ flags) (hw : ∀ x ∈ w, Ordinary x)
    (hc : Ordinary c) (hv : ∀ x ∈ v, Ordinary x) (tag : Nat) :
    let d := Dialect.ofFlags flags
    (∀ m n, m ≤ n → n ≤ Brace.largestWritten →
      RepeatsLast flags tag w c v (d.braced (toString m ++ "," ++ toString n))
        fun k => m ≤ k ∧ k ≤ n) ∧
    (∀ m, m ≤ Brace.largestWritten →
      RepeatsLast flags tag w c v (d.braced (toString m ++ ",")) fun k => m ≤ k) ∧
    RepeatsLast flags tag w c v "*" fun _ => True := by
  intro d
  have hlimit : Brace.largestWritten < unbounded := by decide
  refine ⟨fun m n hmn hn => ?_, fun m hm => ?_, ?_⟩
  · let b : Bounds := ⟨m, n, hmn, Nat.le_of_lt (Nat.lt_of_le_of_lt hn hlimit)⟩
    refine repeatsLast_of_quantifies (b := b) hcase hw hc hv
      (quantifies_braced false fun _ => Brace.read_between (b := b) hn) (fun k => ?_) tag
    have hb : ¬ b.isUnbounded := by
      rw [Bounds.isUnbounded_iff]
      exact Nat.ne_of_lt (Nat.lt_of_le_of_lt hn hlimit)
    exact and_congr_right fun _ => or_iff_right hb
  · refine repeatsLast_of_quantifies hcase hw hc hv
      (quantifies_braced false fun _ => Brace.read_atLeast hm) (fun k => ?_) tag
    have hlower : (Bounds.atLeast m).lower = m :=
      Nat.min_eq_left (Nat.le_of_lt (Nat.lt_of_le_of_lt hm hlimit))
    rw [Bounds.Allows, hlower]
    exact and_iff_left (.inl rfl)
  · exact repeatsLast_of_quantifies hcase hw hc hv (quantifies_star d false v)
      (fun k => iff_true_intro ⟨Nat.zero_le k, .inl rfl⟩) tag

theorem repeatsLast_of_two_or_three : ∃ m, compile [.basic] "ab\\\x7b2,3\\\x7dc" = .ok m ∧
    m.1.accepts "abbc".toList ∧ ¬ m.1.accepts "ababc".toList := by
  have hw : ∀ x ∈ ['a'], Ordinary x := List.forall_mem_singleton.mpr (by decide)
  have hv : ∀ x ∈ ['c'], Ordinary x := List.forall_mem_singleton.mpr (by decide)
  have hrepeats : RepeatsLast [.basic] 0 ['a'] 'b' ['c'] _ _ :=
    (repeatsLast_of_ordinary (by decide) hw (by decide) hv 0).1 2 3 (by decide) (by decide)
  obtain ⟨m, hcompile, haccepts⟩ := hrepeats
  refine ⟨m, hcompile, (haccepts _).mpr ⟨2, by decide, rfl⟩, fun h => ?_⟩
  obtain ⟨k, ⟨hle, hge⟩, hs⟩ := (haccepts _).mp h
  obtain rfl | rfl : k = 2 ∨ k = 3 := by omega
  all_goals exact absurd hs (by decide)

end IncrementalRegex
