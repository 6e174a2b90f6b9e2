import IncrementalRegex.Proofs.Phase

namespace IncrementalRegex

/-- What has been read has opened a bracket and not closed it. -/
def InBracket (ts : List Token) : Prop :=
  ∃ before opening inner, ts = before ++ opening :: inner ∧ opening.kind = .lBracket ∧
    ∀ t ∈ inner, t.kind ≠ .rBracket

/-- A sequence of tokens as patterns spell them, up to the end or a fault. -/
structure WellFormed (ts : List Token) : Prop where
  /-- A lower bound is followed by an upper bound that fits it. -/
  lower : ∀ xs t ys, ts = xs ++ t :: ys → t.kind = .repLower → ∃ u zs, ys = u :: zs ∧
    u.kind = .repUpper ∧ t.count ≤ u.count ∧ (u.count ≤ 0x7fff ∨ u.count = unbounded)
  upper : ∀ xs t ys, ts = xs ++ t :: ys → t.kind = .repUpper →
    ∃ u, xs.getLast? = some u ∧ u.kind = .repLower
  /-- Some kinds stand in brackets only. -/
  bracketOnly : ∀ xs t ys, ts = xs ++ t :: ys → t.kind.isBracketOnly → InBracket xs
  /-- Brackets hold these kinds only. -/
  inBracket : ∀ xs t ys, ts = xs ++ t :: ys → InBracket xs →
    t.kind.isBracketOnly ∨ t.kind = .charClass
  negation : ∀ xs t ys, ts = xs ++ t :: ys → t.kind = .negation →
    ∃ u, xs.getLast? = some u ∧ u.kind = .lBracket
  /-- Something stands in every bracket, and not just a negation. -/
  item : ∀ xs opening inner closing ys, ts = xs ++ opening :: inner ++ closing :: ys →
    opening.kind = .lBracket → closing.kind = .rBracket → (∀ t ∈ inner, t.kind ≠ .rBracket) →
    ∃ t ∈ inner, t.kind ≠ .negation
  /-- A dash stands between the ends of a range. -/
  dash : ∀ xs t ys, ts = xs ++ t :: ys → t.kind = .rangeDash → ∃ before u, xs = before ++ [u] ∧
    (u.kind = .bracketLiteral ∨ u.kind = .collate) ∧
    (∀ v, before.getLast? = some v → v.kind ≠ .rangeDash) ∧
    ∀ w, ys.head? = some w → w.kind ≠ .rBracket
  qualifier : ∀ xs t ys, ts = xs ++ t :: ys → t.kind.qualifiesGroup →
    ∃ u, xs.getLast? = some u ∧ u.kind = .lParen
  /-- No group is closed that has not been opened. -/
  groups : ∀ xs ys, ts = xs ++ ys →
    xs.countP (·.hasKind .rParen) ≤ xs.countP (·.hasKind .lParen)
  /-- Kinds that only tables speak of do not occur. -/
  resolved : ∀ t ∈ ts, t.kind.isInternal = false

/-- No group is opened in a bracket, so that only the end of a bracket leads out of it. -/
theorem Context.after_eq_bracket_iff {s : Context} {kind : TokenKind}
    (h : s = .bracket → kind ≠ .lParen) :
    s.after kind = .bracket ↔ kind = .lBracket ∨ s = .bracket ∧ kind ≠ .rBracket := by
  unfold after
  split
  · have hs : s ≠ .bracket := fun hs => h hs rfl
    simp [hs]
  · simp
  · simp
  next hopen hclose =>
    have hopen' : kind ≠ .lBracket := hopen
    have hclose' : kind ≠ .rBracket := hclose
    cases s <;> simp [hopen', hclose']

namespace BracketPlace

variable {p : BracketPlace} {t : Token}

theorem rangeStart_of_after (h : p.after t = .afterRangeStart) :
    (t.kind = .bracketLiteral ∨ t.kind = .collate) ∧ p ≠ .afterDash := by
  unfold after at h
  split at h <;> try split_ifs at h
  all_goals simp_all

theorem after_dash (h : t.kind = .rangeDash) : afterRangeStart.after t = .afterDash := by
  unfold after
  rw [h]

theorem after_ne_start (h : t.kind ≠ .rBracket) : p.after t ≠ .start := by
  unfold after
  split <;> try split_ifs
  all_goals simp_all

end BracketPlace

namespace Phase

variable {ts : List Token} {t : Token} {ph ph' : Phase}

theorem Reached.of_concat (h : Reached (ts ++ [t]) ph') : ∃ ph, Reached ts ph ∧ Step ph t ph' := by
  generalize hts : ts ++ [t] = us at h
  cases h with
  | start => simp at hts
  | snoc before step =>
    obtain ⟨rfl, heq⟩ := List.append_inj' hts rfl
    cases heq
    exact ⟨_, before, step⟩

/-- All phases but the first one depend on the last token. -/
theorem Reached.exists_last (h : Reached ts ph) (hph : ph ≠ .outside) :
    ∃ before u ph', ts = before ++ [u] ∧ Reached before ph' ∧ Step ph' u ph := by
  cases h with
  | start => contradiction
  | snoc before step => exact ⟨_, _, _, rfl, before, step⟩

theorem Reached.last_of_opened (h : Reached ts .opened) :
    ∃ u, ts.getLast? = some u ∧ u.kind = .lParen := by
  obtain ⟨before, u, ph', rfl, -, step⟩ := h.exists_last nofun
  cases step with
  | openGroup _ kind => exact ⟨u, List.getLast?_concat, kind⟩

theorem Reached.last_of_repeated {lower : Nat} (h : Reached ts (.repeated lower)) :
    ∃ u, ts.getLast? = some u ∧ u.kind = .repLower := by
  obtain ⟨before, u, ph', rfl, -, step⟩ := h.exists_last nofun
  cases step with
  | lower _ kind => exact ⟨u, List.getLast?_concat, kind⟩

theorem Reached.last_of_start (h : Reached ts (.inside .start)) :
    ∃ u, ts.getLast? = some u ∧ u.kind = .lBracket := by
  obtain ⟨before, u, ph', rfl, -, step⟩ := h.exists_last nofun
  generalize hp : BracketPlace.start = p at step
  cases step with
  | openBracket _ kind => exact ⟨u, List.getLast?_concat, kind⟩
  | item kind =>
    refine absurd hp.symm (BracketPlace.after_ne_start ?_)
    intro hk
    rw [hk] at kind
    cases kind

/-- A place where a dash makes a range is behind the start of that range. -/
theorem Reached.last_of_rangeStart (h : Reached ts (.inside .afterRangeStart)) :
    ∃ before u, ts = before ++ [u] ∧ (u.kind = .bracketLiteral ∨ u.kind = .collate) ∧
      ∀ v, before.getLast? = some v → v.kind ≠ .rangeDash := by
  obtain ⟨before, u, ph', rfl, hbefore, step⟩ := h.exists_last nofun
  generalize hp : BracketPlace.afterRangeStart = p at step
  cases step with
  | openBracket => cases hp
  | @item place _ _ _ _ =>
    obtain ⟨hu, hplace⟩ := BracketPlace.rangeStart_of_after hp.symm
    refine ⟨before, u, rfl, hu, fun v hv hk => hplace ?_⟩
    obtain ⟨earlier, rfl⟩ := List.getLast?_eq_some_iff.mp hv
    obtain ⟨ph, -, step⟩ := hbefore.of_concat
    cases step with
    | openBracket _ kind =>
      rw [hk] at kind
      cases kind
    | item _ _ dash =>
      obtain rfl := dash hk
      exact BracketPlace.after_dash hk

theorem inBracket_concat : InBracket (ts ++ [t]) ↔
    t.kind = .lBracket ∨ InBracket ts ∧ t.kind ≠ .rBracket := by
  constructor
  · intro h
    obtain ⟨before, opening, inner, hts, hopening, hinner⟩ := h
    rcases List.eq_nil_or_concat inner with rfl | ⟨inner, last, rfl⟩
    · obtain ⟨rfl, heq⟩ := List.append_inj' hts rfl
      cases heq
      exact .inl hopening
    · rw [List.concat_eq_append] at hts hinner
      rw [← List.cons_append, ← List.append_assoc] at hts
      obtain ⟨rfl, heq⟩ := List.append_inj' hts rfl
      cases heq
      refine .inr ⟨⟨before, opening, inner, rfl, hopening, fun u hu => ?_⟩, ?_⟩
      · exact hinner u (List.mem_append_left _ hu)
      · exact hinner t (by simp)
  · intro h
    rcases h with hk | ⟨⟨before, opening, inner, rfl, hopening, hinner⟩, hk⟩
    · exact ⟨ts, t, [], rfl, hk, List.forall_mem_nil _⟩
    · refine ⟨before, opening, inner ++ [t], by simp, hopening, fun u hu => ?_⟩
      rcases List.mem_append.mp hu with hu | hu
      · exact hinner u hu
      · rwa [List.mem_singleton.mp hu]

/-- The phases of brackets are those with an open bracket before them. -/
theorem Reached.inBracket_iff (h : Reached ts ph) : InBracket ts ↔ ph.context = .bracket := by
  induction h with
  | start =>
    refine iff_of_false (fun hb => ?_) nofun
    obtain ⟨before, opening, inner, hts, -⟩ := hb
    simp at hts
  | @snoc ts t ph ph' _ step ih =>
    have hgroup : ph.context = .bracket → t.kind ≠ .lParen := by
      intro hp hk
      cases step with
      | openGroup place => rcases place with rfl | rfl <;> cases hp
      | item kind =>
        rw [hk] at kind
        cases kind
      | _ => simp_all [TokenKind.isPlain, TokenKind.qualifiesGroup]
    rw [inBracket_concat, ih, step.context_after, Context.after_eq_bracket_iff hgroup]

theorem Step.eq_inside (h : Step ph t ph') (hk : t.kind.isBracketOnly) :
    ∃ place, ph = .inside place := by
  cases h with
  | item | closeBracket => exact ⟨_, rfl⟩
  | plain _ kind =>
    rw [(TokenKind.outside_of_isPlain kind).1] at hk
    cases hk
  | qualifier kind =>
    rw [(TokenKind.outside_of_qualifiesGroup kind).2.1] at hk
    cases hk
  | openGroup _ kind | openBracket _ kind | lower _ kind | upper kind =>
    rw [kind] at hk
    cases hk

theorem Step.eq_repeated (h : Step ph t ph') (hk : t.kind = .repUpper) :
    ∃ lower, ph = .repeated lower := by
  cases h with
  | upper => exact ⟨_, rfl⟩
  | plain _ kind | openGroup _ kind | openBracket _ kind | lower _ kind | qualifier kind
  | item kind | closeBracket kind =>
    rw [hk] at kind
    cases kind

theorem Step.eq_opened (h : Step ph t ph') (hk : t.kind.qualifiesGroup) : ph = .opened := by
  obtain ⟨hplain, -, hbracket, -⟩ := TokenKind.outside_of_qualifiesGroup hk
  cases h with
  | qualifier => rfl
  | plain _ kind =>
    rw [hplain] at kind
    cases kind
  | item kind =>
    rw [hbracket] at kind
    cases kind
  | openGroup _ kind | openBracket _ kind | lower _ kind | upper kind | closeBracket kind =>
    rw [kind] at hk
    cases hk

theorem Step.eq_start (h : Step ph t ph') (hk : t.kind = .negation) : ph = .inside .start := by
  cases h with
  | item _ negation => rw [negation hk]
  | plain _ kind | openGroup _ kind | openBracket _ kind | lower _ kind | upper kind
  | qualifier kind | closeBracket kind =>
    rw [hk] at kind
    cases kind

theorem Step.eq_rangeStart (h : Step ph t ph') (hk : t.kind = .rangeDash) :
    ph = .inside .afterRangeStart ∧ ph' = .inside .afterDash := by
  cases h with
  | item _ _ dash =>
    obtain rfl := dash hk
    exact ⟨rfl, by rw [BracketPlace.after_dash hk]⟩
  | plain _ kind | openGroup _ kind | openBracket _ kind | lower _ kind | upper kind
  | qualifier kind | closeBracket kind =>
    rw [hk] at kind
    cases kind

theorem Step.closing (h : Step ph t ph') (hk : t.kind = .rBracket) : ∃ place, ph = .inside place ∧
    place ≠ .start ∧ place ≠ .afterCaret ∧ place ≠ .afterDash := by
  cases h with
  | closeBracket _ start caret dash => exact ⟨_, rfl, start, caret, dash⟩
  | plain _ kind | openGroup _ kind | openBracket _ kind | lower _ kind | upper kind
  | qualifier kind | item kind =>
    rw [hk] at kind
    cases kind

/-- A token that begins something is followed by the phase of what it begins. -/
theorem Step.begins (h : Step ph t ph') :
    (t.kind = .lParen → ph' = .opened) ∧ (t.kind = .lBracket → ph' = .inside .start) ∧
      (t.kind = .repLower → ph' = .repeated t.count) := by
  cases h with
  | openGroup _ kind | openBracket _ kind | lower _ kind => simp [kind]
  | plain _ kind | upper kind | qualifier kind | item kind | closeBracket kind =>
    refine ⟨fun hk => ?_, fun hk => ?_, fun hk => ?_⟩ <;> rw [hk] at kind <;> cases kind

theorem Step.kind_of_inside {place : BracketPlace} (h : Step (.inside place) t ph') :
    t.kind.isBracketOnly ∨ t.kind = .charClass := by
  cases h with
  | item kind => exact (TokenKind.inside_of_standsInBracket kind).1
  | closeBracket kind =>
    rw [kind]
    exact .inl rfl
  | plain place | openGroup place | openBracket place | lower place => simp at place

theorem Step.resolved (h : Step ph t ph') : t.kind.isInternal = false := by
  cases h with
  | plain _ kind => exact (TokenKind.outside_of_isPlain kind).2
  | qualifier kind => exact (TokenKind.outside_of_qualifiesGroup kind).2.2.2
  | item kind => exact (TokenKind.inside_of_standsInBracket kind).2
  | openGroup _ kind | openBracket _ kind | lower _ kind | upper kind | closeBracket kind =>
    rw [kind]
    rfl

/-- A bracket can be closed only behind an item. -/
theorem Reached.exists_item {xs inner : List Token} {opening : Token} {place : BracketPlace}
    (h : Reached (xs ++ opening :: inner) (.inside place)) (hopening : opening.kind = .lBracket)
    (hstart : place ≠ .start) (hcaret : place ≠ .afterCaret) : ∃ t ∈ inner, t.kind ≠ .negation := by
  rcases List.eq_nil_or_concat inner with rfl | ⟨init, last, rfl⟩
  · obtain ⟨ph, -, step⟩ := h.of_concat
    cases step with
    | openBracket => contradiction
    | item kind =>
      rw [hopening] at kind
      cases kind
  · rw [List.concat_eq_append] at h ⊢
    rw [← List.cons_append, ← List.append_assoc] at h
    obtain ⟨ph, -, step⟩ := h.of_concat
    refine ⟨last, by simp, fun hk => hcaret ?_⟩
    obtain rfl := step.eq_start hk
    cases step with
    | item =>
      unfold BracketPlace.after
      rw [hk]
    | openBracket place => simp at place

end Phase

namespace TokenReader

variable {s : TokenReader} {xs ys : List Token} {t : Token}

/-- The reader is in the phase that the tokens before it lead to. -/
def InStep (ts : List Token) (s : TokenReader) : Prop :=
  ∃ ph, Phase.Reached ts ph ∧ s.Stands ph

theorem InStep.read {s' : TokenReader} (h : InStep xs s) (hr : s.read = .ok (some (t, s'))) :
    InStep (xs ++ [t]) s' := by
  obtain ⟨ph, hreached, hstands⟩ := h
  obtain ⟨ph', step, hstands'⟩ := stands_of_read hstands hr
  exact ⟨ph', hreached.snoc step, hstands'⟩

theorem exists_step (hs : s.Stands .outside) (ht : s.tokens = xs ++ t :: ys) :
    ∃ (ph ph' : Phase) (s' : TokenReader), Phase.Reached xs ph ∧ Phase.Step ph t ph' ∧
      s'.Stands ph' ∧ s'.tokens = ys := by
  have hstart : InStep [] s := ⟨_, .start, hs⟩
  obtain ⟨s₁, ⟨ph, hreached, hstands⟩, hrest⟩ :=
    exists_of_tokens (P := InStep) InStep.read hstart ht
  obtain ⟨s', hread, hrest'⟩ := exists_read_of_tokens hrest
  obtain ⟨ph', step, hstands'⟩ := stands_of_read hstands hread
  exact ⟨ph, ph', s', hreached, step, hstands', hrest'⟩

/-- The reader has counted the groups that the tokens before it leave open. -/
def Counted (ts : List Token) (s : TokenReader) : Prop :=
  s.nesting.depth + ts.countP (·.hasKind .rParen) = ts.countP (·.hasKind .lParen)

theorem Counted.read {s' : TokenReader} (h : Counted xs s) (hr : s.read = .ok (some (t, s'))) :
    Counted (xs ++ [t]) s' := by
  obtain ⟨u, hread, hnesting, rfl⟩ := read_eq_some_iff.mp hr
  have hsame : u.nesting = s.nesting := by
    cases readInContext_eq_some_iff.mp hread <;> rfl
  rw [hsame] at hnesting
  have hdepth := Nesting.depth_after hnesting
  simp only [Counted, List.countP_append, Token.countP_singleton, hsame] at h ⊢
  omega

theorem countP_le (hdepth : s.nesting.depth = 0) (ht : s.tokens = xs ++ ys) :
    xs.countP (·.hasKind .rParen) ≤ xs.countP (·.hasKind .lParen) := by
  have hstart : Counted [] s := hdepth
  obtain ⟨s', h, -⟩ := exists_of_tokens (P := Counted) Counted.read hstart ht
  unfold Counted at h
  omega

theorem wellFormed_tokens (hs : s.Stands .outside) (hdepth : s.nesting.depth = 0) :
    WellFormed s.tokens where
  lower xs t ys ht hk := by
    obtain ⟨ph, ph', s', -, step, hstands, hrest⟩ := exists_step hs ht
    obtain rfl := step.begins.2.2 hk
    obtain ⟨u, s₁, hread⟩ := exists_read_of_repeated hstands
    obtain ⟨_, step', -⟩ := stands_of_read hstands hread
    rw [tokens_of_token hread] at hrest
    cases step' with
    | upper kind le reachable => exact ⟨u, _, hrest.symm, kind, le, reachable⟩
    | plain place | openGroup place | openBracket place | lower place => simp at place
  upper xs t ys ht hk := by
    obtain ⟨ph, ph', s', hreached, step, -⟩ := exists_step hs ht
    obtain ⟨lower, rfl⟩ := step.eq_repeated hk
    exact hreached.last_of_repeated
  bracketOnly xs t ys ht hk := by
    obtain ⟨ph, ph', s', hreached, step, -⟩ := exists_step hs ht
    obtain ⟨place, rfl⟩ := step.eq_inside hk
    exact hreached.inBracket_iff.mpr rfl
  inBracket xs t ys ht hb := by
    obtain ⟨ph, ph', s', hreached, step, -⟩ := exists_step hs ht
    have hcontext := hreached.inBracket_iff.mp hb
    cases ph with
    | inside place => exact step.kind_of_inside
    | outside | opened | repeated => cases hcontext
  negation xs t ys ht hk := by
    obtain ⟨ph, ph', s', hreached, step, -⟩ := exists_step hs ht
    obtain rfl := step.eq_start hk
    exact hreached.last_of_start
  item xs opening inner closing ys ht hopening hclosing hinner := by
    obtain ⟨ph, ph', s', hreached, step, -⟩ := exists_step hs ht
    obtain ⟨place, rfl, hstart, hcaret, -⟩ := step.closing hclosing
    exact hreached.exists_item hopening hstart hcaret
  dash xs t ys ht hk := by
    obtain ⟨ph, ph', s', hreached, step, hstands, hrest⟩ := exists_step hs ht
    obtain ⟨rfl, rfl⟩ := step.eq_rangeStart hk
    obtain ⟨before, u, rfl, hu, hv⟩ := hreached.last_of_rangeStart
    refine ⟨before, u, rfl, hu, hv, fun w hw hclosing => ?_⟩
    obtain ⟨zs, rfl⟩ := List.head?_eq_some_iff.mp hw
    obtain ⟨s₁, hread, -⟩ := exists_read_of_tokens hrest
    obtain ⟨_, step', -⟩ := stands_of_read hstands hread
    obtain ⟨place, hplace, -, -, hdash⟩ := step'.closing hclosing
    cases hplace
    contradiction
  qualifier xs t ys ht hk := by
    obtain ⟨ph, ph', s', hreached, step, -⟩ := exists_step hs ht
    obtain rfl := step.eq_opened hk
    exact hreached.last_of_opened
  groups xs ys ht := countP_le hdepth ht
  resolved t ht := by
    obtain ⟨xs, ys, ht⟩ := List.append_of_mem ht
    obtain ⟨ph, ph', s', -, step, -⟩ := exists_step hs ht
    exact step.resolved

end TokenReader

/-- Whatever the pattern, what comes of reading it is a well formed sequence of tokens, and at most
one fault after it. -/
theorem TokenStream.wellFormed_ofPattern (flags : Flags) (pattern : String) :
    let stream := TokenStream.ofPattern flags pattern
    (TokenReader.ofPattern flags pattern).Yields
        (stream.lexemes.map (.ok ·.token) ++ stream.fault.toList.map .error) ∧
      WellFormed (stream.lexemes.map Lexeme.token) := by
  intro stream
  have hstart : (TokenReader.ofPattern flags pattern).Stands .outside :=
    TokenReader.stands_start _ _ _
  exact ⟨TokenReader.yields_stream rfl rfl, TokenReader.wellFormed_tokens hstart rfl⟩

end IncrementalRegex
