import IncrementalRegex.CommandLine
import IncrementalRegex.Proofs.Alike
import IncrementalRegex.Proofs.Interleaving
import IncrementalRegex.Proofs.Taking

namespace IncrementalRegex

open Matcher

/-- As much is closed as is opened, and every bracket later than it is opened. -/
structure Balanced (ts : List Token) : Prop where
  groups : ts.countP (·.hasKind .lParen) = ts.countP (·.hasKind .rParen)
  brackets : ts.countP (·.hasKind .lBracket) = ts.countP (·.hasKind .rBracket)
  closed : ∀ xs t ys, ts = xs ++ t :: ys → t.kind = .lBracket → ∃ u ∈ ys, u.kind = .rBracket

namespace Parser

variable {g : Grammar} {p p' q : Parser} {t : Token} {ts : List Token}

theorem Takes.groups (h : p.Takes t p') :
    p'.outer.length + [t].countP (·.hasKind .rParen) =
      p.outer.length + [t].countP (·.hasKind .lParen) := by
  have hdepth := Nesting.depth_after h.closesNothing
  rw [← h.depth_after] at hdepth
  rwa [Token.countP_singleton, Token.countP_singleton]

/-- The number of brackets that are open. -/
def brackets (p : Parser) : Nat := if p.expecting.context = .bracket then 1 else 0

theorem TakesElement.brackets (h : p.TakesElement t p') :
    p'.brackets + [t].countP (·.hasKind .rBracket) = [t].countP (·.hasKind .lBracket) := by
  rw [Token.countP_singleton, Token.countP_singleton]
  cases h with
  | push leaf kind => rcases kind with hk | hk | hk | hk <;> rw [hk] <;> rfl
  | dollar hk | openGroup hk | closeGroup hk | openBracket hk | alternation hk | repetition hk =>
    rw [hk]
    rfl

theorem brackets_of_context (h : p.expecting.context = .bracket) : p.brackets = 1 := if_pos h

theorem brackets_of_expecting {e : Expecting} (h : p.expecting = e) (he : e.context ≠ .bracket) :
    p.brackets = 0 := if_neg (h ▸ he)

theorem Takes.brackets (h : p.Takes t p') :
    p'.brackets + [t].countP (·.hasKind .rBracket) =
      p.brackets + [t].countP (·.hasKind .lBracket) := by
  cases h with
  | element context h =>
    have hp : p.brackets = 0 := by
      rcases context with he | he <;> exact brackets_of_expecting he (by decide)
    rw [hp, Nat.zero_add, h.brackets]
  | afterDollar context h =>
    rw [brackets_of_expecting context (by decide), Nat.zero_add, h.brackets]
  | plainGroup context hk | star context hk | repeated context hk =>
    have hp : p.brackets = 0 := brackets_of_expecting context (by intro h; cases h)
    rw [Token.countP_singleton, Token.countP_singleton, hk, hp]
    rfl
  | closeBracket context hk =>
    rw [Token.countP_singleton, Token.countP_singleton, hk, brackets_of_context context]
    rfl
  | @inBracket e context next hk =>
    have hnext : (p.expect e).brackets = 1 := brackets_of_context next
    obtain ⟨-, -, hopen, hclose⟩ := TokenKind.ne_of_standsInBracket hk
    rw [Token.countP_singleton, Token.countP_singleton, brackets_of_context context, hnext,
      if_neg hopen, if_neg hclose]

/-- What a token adds to a count, and what it takes from it, adds up over all tokens. -/
theorem takeAll_count {measure : Parser → Nat} {opening closing : TokenKind}
    (hstep : ∀ {p t p'}, Takes p t p' → measure p' + [t].countP (·.hasKind closing) =
      measure p + [t].countP (·.hasKind opening)) (h : p.takeAll g ts = .ok q) :
    measure q + ts.countP (·.hasKind closing) = measure p + ts.countP (·.hasKind opening) := by
  induction ts generalizing p with
  | nil =>
    cases h
    rfl
  | cons t ts ih =>
    obtain ⟨p', hp', hq⟩ := takeAll_cons_eq_ok_iff.mp h
    have hone := hstep (takes_of_step hp')
    have hall := ih hq
    rw [← List.singleton_append, List.countP_append, List.countP_append]
    omega

theorem exists_closing (hp : p.expecting.context = .bracket) (h : p.takeAll g ts = .ok q)
    (hq : q.expecting.context ≠ .bracket) : ∃ u ∈ ts, u.kind = .rBracket := by
  induction ts generalizing p with
  | nil =>
    cases h
    exact absurd hp hq
  | cons t ts ih =>
    obtain ⟨p', hp', hlater⟩ := takeAll_cons_eq_ok_iff.mp h
    rcases (takes_of_step hp').in_bracket hp with hk | hbracket
    · exact ⟨t, List.mem_cons_self, hk⟩
    · obtain ⟨u, hu, hk⟩ := ih hbracket hlater
      exact ⟨u, List.mem_cons_of_mem t hu, hk⟩

theorem balanced_of_takeAll {pattern : Pattern} (h : takeAll g {} ts = .ok q)
    (hfinish : q.finish = .ok pattern) : Balanced ts := by
  obtain ⟨hexpecting, houter, -⟩ := finish_eq_ok_iff.mp hfinish
  have hgroups := takeAll_count Takes.groups h
  have hbrackets := takeAll_count Takes.brackets h
  have hstart : brackets {} = 0 := rfl
  rw [houter] at hgroups
  rw [brackets_of_expecting hexpecting (by decide), hstart] at hbrackets
  refine ⟨?_, ?_, ?_⟩
  · simpa using hgroups.symm
  · simpa using hbrackets.symm
  · intro xs t ys ht hk
    rw [ht, takeAll_append] at h
    obtain ⟨p, -, hlater⟩ := bind_eq_ok.mp h
    obtain ⟨p', hp', hlast⟩ := takeAll_cons_eq_ok_iff.mp hlater
    have hcontext := (takes_of_step hp').context_after
    rw [hk] at hcontext
    refine exists_closing hcontext hlast ?_
    rw [hexpecting]
    decide

end Parser

/-- What comes of reading, with the place of a fault left out. -/
def withoutPlaces (items : List (Except PatternError Token)) : List (Except ErrorKind Token) :=
  items.map (·.mapError (·.kind))

theorem TokenStream.withoutPlaces_items (s : TokenStream) :
    withoutPlaces s.items =
      (s.lexemes.map Lexeme.token).map .ok ++ (s.fault.map (·.kind)).toList.map .error := by
  obtain ⟨lexemes, fault⟩ := s
  simp only [withoutPlaces, items, List.map_append, List.map_map]
  cases fault <;> rfl

/-- Tokens with a fault or none after them can be told from what they are together. -/
theorem eq_of_items_eq {ts us : List Token} {f f' : Option ErrorKind}
    (h : ts.map Except.ok ++ f.toList.map .error = us.map Except.ok ++ f'.toList.map .error) :
    ts = us ∧ f = f' := by
  induction ts generalizing us with
  | nil =>
    cases us with
    | nil => cases f <;> cases f' <;> cases h <;> exact ⟨rfl, rfl⟩
    | cons u us => cases f <;> cases h
  | cons t ts ih =>
    cases us with
    | nil => cases f' <;> cases h
    | cons u us =>
      simp only [List.map_cons, List.cons_append, List.cons.injEq, Except.ok.injEq] at h
      obtain ⟨hts, hf⟩ := ih h.2
      exact ⟨by rw [h.1, hts], hf⟩

variable {flags flags₁ flags₂ : Flags} {text text₁ text₂ : String}
  {items items₁ items₂ : List (Except PatternError Token)}

theorem items_of_yields (h : (TokenReader.ofPattern flags text).Yields items) :
    items = (TokenStream.ofPattern flags text).items :=
  h.unique (TokenReader.yields_stream rfl rfl)

/-- Both are compiled, to matchers that report the same states, or both fail for the same reason. -/
def SameOutcome : (r₁ r₂ : Except PatternError (Matcher Char CharTest × Nat)) → Prop
  | .ok m₁, .ok m₂ => m₁.1.start.state = m₂.1.start.state ∧
      ∀ input, m₁.1.start.states input = m₂.1.start.states input
  | .error e₁, .error e₂ => e₁.kind = e₂.kind
  | _, _ => False

theorem spells_iff_of_tokens {g : Grammar} {s s' : TokenReader} {pattern : Pattern}
    (htokens : s.tokens = s'.tokens)
    (hfault : s.stream.fault.map (·.kind) = s'.stream.fault.map (·.kind)) :
    Spells g s {} pattern ↔ Spells g s' {} pattern := by
  have hnone : s.stream.fault = none ↔ s'.stream.fault = none := by
    rw [← Option.map_eq_none_iff, hfault, Option.map_eq_none_iff]
  rw [spells_iff_takeAll, spells_iff_takeAll, htokens, hnone]

theorem sameOutcome_of_items (hdialect : Dialect.ofFlags flags₁ = .ofFlags flags₂)
    (hcase : flags₁.contains .icase = flags₂.contains .icase)
    (h : withoutPlaces (TokenStream.ofPattern flags₁ text₁).items =
      withoutPlaces (TokenStream.ofPattern flags₂ text₂).items) (tag₁ tag₂ : Nat) :
    SameOutcome (compile flags₁ text₁ tag₁) (compile flags₂ text₂ tag₂) := by
  rw [TokenStream.withoutPlaces_items, TokenStream.withoutPlaces_items] at h
  obtain ⟨htokens, hfault⟩ := eq_of_items_eq h
  have hgrammar : Grammar.ofFlags flags₁ = .ofFlags flags₂ := by
    rw [Grammar.ofFlags, Grammar.ofFlags, hdialect, hcase]
  have hspells {pattern : Pattern} :
      Spells (.ofFlags flags₁) (.ofPattern flags₁ text₁) {} pattern ↔
        Spells (.ofFlags flags₂) (.ofPattern flags₂ text₂) {} pattern := by
    rw [hgrammar]
    exact spells_iff_of_tokens htokens hfault
  cases h₁ : compile flags₁ text₁ tag₁ with
  | ok m₁ =>
    obtain ⟨pattern, hpattern, rfl⟩ := compile_eq_ok_iff.mp h₁
    rw [compile_eq_ok_iff.mpr ⟨pattern, hspells.mp hpattern, rfl⟩]
    have halike := Pattern.alike_matcher (proper_of_spells hpattern) tag₁ tag₂
    exact ⟨halike.state_eq, halike.states_eq⟩
  | error e₁ =>
    cases h₂ : compile flags₂ text₂ tag₂ with
    | ok m₂ =>
      obtain ⟨pattern, hpattern, -⟩ := compile_eq_ok_iff.mp h₂
      cases h₁.symm.trans (compile_eq_ok_iff.mpr ⟨pattern, hspells.mpr hpattern, rfl⟩)
    | error e₂ =>
      have hkind₁ := compile_kind flags₁ text₁ tag₁
      have hkind₂ := compile_kind flags₂ text₂ tag₂
      have htokens' : (TokenReader.ofPattern flags₁ text₁).tokens =
          (TokenReader.ofPattern flags₂ text₂).tokens := htokens
      rw [h₁, hgrammar, htokens', hfault] at hkind₁
      rw [h₂] at hkind₂
      cases hout : outcome (.ofFlags flags₂) (TokenReader.ofPattern flags₂ text₂).tokens
          ((TokenStream.ofPattern flags₂ text₂).fault.map (·.kind)) <;> rw [hout] at hkind₁ hkind₂
      · exact (Except.error.inj hkind₁).trans (Except.error.inj hkind₂).symm
      · cases hkind₁

/-- A pattern is compiled only if all of it can be read, and what it opens is closed. -/
theorem balanced_of_compile {tag : Nat} {m : Matcher Char CharTest × Nat}
    (h : compile flags text tag = .ok m) :
    ∃ ts, (TokenStream.ofPattern flags text).items = ts.map .ok ∧ Balanced ts := by
  obtain ⟨pattern, hspells, -⟩ := compile_eq_ok_iff.mp h
  obtain ⟨last, htake, hfault, hfinish⟩ := spells_iff_takeAll.mp hspells
  refine ⟨_, ?_, Parser.balanced_of_takeAll htake hfinish⟩
  have hnone : (TokenStream.ofPattern flags text).fault = none := hfault
  rw [TokenStream.items, hnone, TokenReader.tokens, List.map_map]
  exact List.append_nil _

/-- A list of the tokens that shows a fault comes with a failure of the program. -/
theorem CommandLine.code_of_fault {r : CommandLine.Request} {e : PatternError}
    (h : .error e ∈ (TokenStream.ofPattern r.flags r.pattern).items) (input : String) :
    (CommandLine.run r input).code = 1 := by
  cases hm : compile r.flags r.pattern with
  | error e' =>
    rw [CommandLine.run, Regex.ofPattern, hm]
    rfl
  | ok m =>
    obtain ⟨ts, hts, -⟩ := balanced_of_compile hm
    rw [hts] at h
    obtain ⟨t, -, ht⟩ := List.mem_map.mp h
    cases ht

/-- What is compiled depends on a pattern only through its tokens, although they are taken, given
back and taken again while the pattern is still read. -/
theorem compile_of_items (hdialect : Dialect.ofFlags flags₁ = .ofFlags flags₂)
    (hcase : flags₁.contains .icase = flags₂.contains .icase)
    (h₁ : (TokenReader.ofPattern flags₁ text₁).Yields items₁)
    (h₂ : (TokenReader.ofPattern flags₂ text₂).Yields items₂)
    (h : withoutPlaces items₁ = withoutPlaces items₂) (tag₁ tag₂ : Nat) :
    compile flags₁ text₁ tag₁ = Descent.compile flags₁ text₁ tag₁ ∧
      SameOutcome (compile flags₁ text₁ tag₁) (compile flags₂ text₂ tag₂) ∧
      (∀ m, compile flags₁ text₁ tag₁ = .ok m → ∃ ts, items₁ = ts.map .ok ∧ Balanced ts) ∧
      ∀ (r : CommandLine.Request) (items : List (Except PatternError Token)), r.dump →
        (TokenReader.ofPattern r.flags r.pattern).Yields items →
        CommandLine.tokenDump r = CommandLine.unlines
            (["DEBUG", "--------"] ++ items.map CommandLine.itemText ++ ["--------"]) ∧
          ∀ e, .error e ∈ items → ∀ input, (CommandLine.run r input).code = 1 := by
  obtain rfl := items_of_yields h₁
  obtain rfl := items_of_yields h₂
  refine ⟨compile_eq_descent flags₁ text₁ tag₁, sameOutcome_of_items hdialect hcase h tag₁ tag₂,
    fun m hm => balanced_of_compile hm, ?_⟩
  intro r items hdump hitems
  obtain rfl := items_of_yields hitems
  refine ⟨?_, fun e he input => CommandLine.code_of_fault he input⟩
  rw [CommandLine.tokenDump, if_pos hdump]

theorem states_eq_of_exact_counts :
    ∃ m₁ m₂, compile [] ".\x7b2\x7d" 0 = .ok m₁ ∧
      compile [.ecmascript] ".\x7b2,2\x7d" 1 = .ok m₂ ∧
      ∀ input, m₁.1.start.states input = m₂.1.start.states input := by
  let items : List (Except PatternError Token) :=
    [.ok (.ofChar .charClass '.'), .ok ⟨.repLower, '\x7b', 2, []⟩, .ok (.ofCount .repUpper 2)]
  have h₁ : (TokenReader.ofPattern [] ".\x7b2\x7d").Yields items := by
    refine .item rfl ?_
    refine .item rfl ?_
    refine .item rfl ?_
    exact .stop rfl
  have h₂ : (TokenReader.ofPattern [.ecmascript] ".\x7b2,2\x7d").Yields items := by
    refine .item rfl ?_
    refine .item rfl ?_
    refine .item rfl ?_
    exact .stop rfl
  have hdialect : Dialect.ofFlags [] = .ofFlags [.ecmascript] := rfl
  have hsame := (compile_of_items hdialect rfl h₁ h₂ rfl 0 1).2.1
  have hcompiles : ∃ m₁, compile [] ".\x7b2\x7d" 0 = .ok m₁ := by
    refine ⟨_, compile_eq_ok_iff.mpr
      ⟨.repeated (.satisfying .notLineEnd) (.exactly 2), ?_, rfl⟩⟩
    exact .step rfl rfl (.step rfl rfl (.step rfl rfl (.done rfl rfl)))
  obtain ⟨m₁, hm₁⟩ := hcompiles
  rw [hm₁] at hsame
  cases hm₂ : compile [.ecmascript] ".\x7b2,2\x7d" 1 with
  | error e =>
    rw [hm₂] at hsame
    exact hsame.elim
  | ok m₂ =>
    rw [hm₂] at hsame
    exact ⟨m₁, m₂, hm₁, rfl, hsame.2⟩

end IncrementalRegex
