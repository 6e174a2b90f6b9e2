import IncrementalRegex.Proofs.Spelling
import IncrementalRegex.Proofs.Stepping

namespace IncrementalRegex

/-- The part of the grammar that the next token has to be read in. -/
def Expecting.context : Expecting → Context
  | element | branchEnd | upperBound _ => .expression
  | groupStart => .subexpression
  | bracketItem .. | rangeEnd .. => .bracket

/-- Tokens that a bracket can hold. -/
def TokenKind.standsInBracket : TokenKind → Bool
  | negation | rangeDash | bracketLiteral | collate | equiv | className | charClass => true
  | _ => false

/-- Nothing that stands in a bracket opens or closes anything. -/
theorem TokenKind.ne_of_standsInBracket {kind : TokenKind} (h : kind.standsInBracket) :
    kind ≠ .lParen ∧ kind ≠ .rParen ∧ kind ≠ .lBracket ∧ kind ≠ .rBracket := by
  refine ⟨?_, ?_, ?_, ?_⟩ <;> rintro rfl <;> cases h

theorem Context.after_of_standsInBracket {kind : TokenKind} (h : kind.standsInBracket) :
    after .bracket kind = .bracket := by
  cases kind <;> first | rfl | cases h

theorem Nesting.after_of_standsInBracket {kind : TokenKind} (h : kind.standsInBracket)
    (n : Nesting) : n.after kind = n := by
  cases kind <;> first | rfl | cases h

/-- A token that is no fault adds to the open groups what it opens and takes what it closes. -/
theorem Nesting.depth_after {n : Nesting} {kind : TokenKind} (h : n.closesNothing kind = false) :
    (n.after kind).depth + (if kind = .rParen then 1 else 0) =
      n.depth + (if kind = .lParen then 1 else 0) := by
  cases kind with
  | rParen =>
    have hpos : n.depth ≠ 0 := by simpa [closesNothing] using h
    simp only [after, if_true, reduceCtorEq, if_false]
    omega
  | _ => rfl

theorem Bounds.lower_of_between {lower upper : Nat} {b : Bounds}
    (h : between? lower upper = some b) : b.lower = lower := by
  unfold between? at h
  split_ifs at h
  cases h
  rfl

theorem Token.countP_singleton (t : Token) (kind : TokenKind) :
    [t].countP (·.hasKind kind) = if t.kind = kind then 1 else 0 := by
  simp [hasKind]

/-- Nothing is put together here. -/
def Pattern.IsLeaf : Pattern → Prop
  | one _ | text _ | any | satisfying _ => True
  | concat _ | either _ | repeated .. => False

theorem Pattern.isLeaf_ofText (cs : List Char) : (ofText cs).IsLeaf := by
  unfold ofText
  split <;> trivial

/-- A single pattern is joined with nothing. -/
theorem Pattern.join_of_forall {P : Pattern → Prop} {combine : List Pattern → Pattern}
    {ps : List Pattern} (hc : (∀ p ∈ ps, P p) → P (combine ps)) (h : ∀ p ∈ ps, P p) :
    P (join combine ps) := by
  unfold join
  split
  · exact h _ List.mem_cons_self
  · exact hc h

namespace Group

/-- All that has been read of a group is as `P` tells. -/
structure All (P : Pattern → Prop) (g : Group) : Prop where
  branches : ∀ p ∈ g.branches, P p
  branch : ∀ p ∈ g.branch, P p

variable {P : Pattern → Prop} {g : Group}

theorem all_empty (P : Pattern → Prop) : All P {} := ⟨List.forall_mem_nil _, List.forall_mem_nil _⟩

theorem All.push (h : g.All P) {e : Pattern} (he : P e) : (g.push e).All P where
  branches := h.branches
  branch := List.forall_mem_cons.mpr ⟨he, h.branch⟩

theorem All.closeBranch (hconcat : ∀ ps, (∀ p ∈ ps, P p) → P (.concat ps)) (h : g.All P) :
    g.closeBranch.All P where
  branches := by
    refine List.forall_mem_cons.mpr ⟨Pattern.join_of_forall (hconcat _) fun p hp => ?_, h.branches⟩
    exact h.branch p (List.mem_reverse.mp hp)
  branch := List.forall_mem_nil _

theorem All.pattern (hconcat : ∀ ps, (∀ p ∈ ps, P p) → P (.concat ps))
    (heither : ∀ ps, (∀ p ∈ ps, P p) → P (.either ps)) (h : g.All P) : P g.pattern :=
  Pattern.join_of_forall (heither _) fun p hp =>
    (h.closeBranch hconcat).branches p (List.mem_reverse.mp hp)

end Group

namespace Parser

theorem isLeaf_charClass (d : Dialect) (letter : Char) : (charClass d letter).IsLeaf := by
  unfold charClass
  split
  · trivial
  · split_ifs <;> trivial

/-- What can become of a token where an element may stand. -/
inductive TakesElement (p : Parser) (t : Token) : Parser → Prop where
  | push {e : Pattern} (leaf : e.IsLeaf) (kind : t.kind = .stringLiteral ∨ t.kind = .literal ∨
      t.kind = .charClass ∨ t.kind = .assertion) : TakesElement p t (p.push e)
  | dollar (kind : t.kind = .assertion) : TakesElement p t (p.expect .branchEnd)
  | openGroup (kind : t.kind = .lParen) :
      TakesElement p t { outer := p.group :: p.outer, expecting := .groupStart }
  | closeGroup {g : Group} {outer : List Group} (kind : t.kind = .rParen)
      (h : p.outer = g :: outer) :
      TakesElement p t ({ p with group := g, outer }.push p.group.pattern)
  | openBracket {set : CharSet} (kind : t.kind = .lBracket) :
      TakesElement p t (p.expect (.bracketItem set none))
  | alternation (kind : t.kind = .alternation) :
      TakesElement p t { p with group := p.group.closeBranch, expecting := .element }
  | repetition (kind : t.kind = .repLower) : TakesElement p t (p.expect (.upperBound t.count))

/-- What can become of a token. -/
inductive Takes (p : Parser) (t : Token) : Parser → Prop where
  | element {p' : Parser} (context : p.expecting = .element ∨ p.expecting = .groupStart)
      (h : p.TakesElement t p') : Takes p t p'
  | plainGroup (context : p.expecting = .groupStart) (kind : t.kind = .noSubexp) :
      Takes p t (p.expect .element)
  | afterDollar {p' : Parser} (context : p.expecting = .branchEnd)
      (h : (p.push (.one '$')).TakesElement t p') : Takes p t p'
  | star {lower : Nat} (context : p.expecting = .upperBound lower) (kind : t.kind = .repUpper) :
      Takes p t (p.push (.one '*'))
  | repeated {b : Bounds} {e : Pattern} {es : List Pattern}
      (context : p.expecting = .upperBound b.lower) (kind : t.kind = .repUpper)
      (h : p.group.branch = e :: es) :
      Takes p t { p with
        group := { p.group with branch := .repeated e b :: es }
        stacked := p.stacked + 1
        expecting := .element }
  | closeBracket {set : CharSet} (context : p.expecting.context = .bracket)
      (kind : t.kind = .rBracket) : Takes p t (p.push (.satisfying (.inSet set)))
  | inBracket {e : Expecting} (context : p.expecting.context = .bracket)
      (next : e.context = .bracket) (kind : t.kind.standsInBracket) : Takes p t (p.expect e)

variable {g : Grammar} {p p' : Parser} {t : Token}

theorem OnElement.takesElement (h : p.OnElement g t p') : p.TakesElement t p' := by
  cases h with
  | text kind => exact .push (Pattern.isLeaf_ofText _) (.inl kind)
  | literal kind => exact .push trivial (.inr (.inl kind))
  | charClass kind => exact .push (isLeaf_charClass ..) (.inr (.inr (.inl kind)))
  | openGroup kind => exact .openGroup kind
  | closeGroup kind opened => exact .closeGroup kind opened
  | openBracket kind => exact .openBracket kind
  | alternation kind => exact .alternation kind
  | leadingStar kind | repetition kind => exact .repetition kind
  | caret kind => exact .push trivial (.inr (.inr (.inr kind)))
  | dollar kind => exact .dollar kind

theorem takes_of_step (h : p.step g t = .ok p') : p.Takes t p' := by
  cases step_eq_ok_iff.mp h with
  | element context h => exact .element (.inl context) h.takesElement
  | qualifier context kind => exact .plainGroup context kind
  | groupStart context h => exact .element (.inr context) h.takesElement
  | afterDollar context _ h => exact .afterDollar context h.takesElement
  | upperBound context h =>
    cases h with
    | star kind => exact .star context kind
    | repeated kind bounds last =>
      rw [← Bounds.lower_of_between bounds] at context
      exact .repeated context kind last
  | @item set rangeStart _ context h =>
    have hcontext : p.expecting.context = .bracket := by rw [context]; rfl
    cases h with
    | close kind => exact .closeBracket hcontext kind
    | negate kind | char kind | collate kind | equiv kind | named kind | escape kind | dash kind =>
      exact .inBracket hcontext rfl (by rw [kind]; rfl)
  | @rangeEnd set start _ context h =>
    have hcontext : p.expecting.context = .bracket := by rw [context]; rfl
    cases h with
    | char kind | collate kind => exact .inBracket hcontext rfl (by rw [kind]; rfl)

theorem TakesElement.context_after (h : p.TakesElement t p') :
    p'.expecting.context = Context.after .expression t.kind ∧
      p'.expecting.context = Context.after .subexpression t.kind := by
  cases h with
  | push leaf kind => rcases kind with hk | hk | hk | hk <;> rw [hk] <;> exact ⟨rfl, rfl⟩
  | dollar hk | openGroup hk | closeGroup hk | openBracket hk | alternation hk | repetition hk =>
    rw [hk]
    exact ⟨rfl, rfl⟩

/-- The parser knows where the next token is to be read. -/
theorem Takes.context_after (h : p.Takes t p') :
    p'.expecting.context = p.expecting.context.after t.kind := by
  cases h with
  | element context h =>
    rcases context with hp | hp <;> rw [hp]
    · exact h.context_after.1
    · exact h.context_after.2
  | plainGroup hp hk | star hp hk | repeated hp hk | closeBracket hp hk =>
    rw [hp, hk]
    rfl
  | afterDollar hp h =>
    rw [hp]
    exact h.context_after.1
  | inBracket hp next hk =>
    rw [hp, Context.after_of_standsInBracket hk]
    exact next

theorem TakesElement.depth_after (h : p.TakesElement t p') :
    (⟨p'.outer.length⟩ : Nesting) = Nesting.after ⟨p.outer.length⟩ t.kind := by
  cases h with
  | push leaf kind => rcases kind with hk | hk | hk | hk <;> rw [hk] <;> rfl
  | closeGroup hk ho =>
    rw [hk, ho]
    rfl
  | dollar hk | openGroup hk | openBracket hk | alternation hk | repetition hk =>
    rw [hk]
    rfl

/-- The parser knows how many groups are open. -/
theorem Takes.depth_after (h : p.Takes t p') :
    (⟨p'.outer.length⟩ : Nesting) = Nesting.after ⟨p.outer.length⟩ t.kind := by
  cases h with
  | element _ h | afterDollar _ h => exact h.depth_after
  | plainGroup _ hk | star _ hk | repeated _ hk | closeBracket _ hk =>
    rw [hk]
    rfl
  | inBracket _ _ hk => exact (Nesting.after_of_standsInBracket hk _).symm

theorem TakesElement.closesNothing (h : p.TakesElement t p') :
    (⟨p.outer.length⟩ : Nesting).closesNothing t.kind = false := by
  cases h with
  | push leaf kind => rcases kind with hk | hk | hk | hk <;> rw [hk] <;> rfl
  | closeGroup hk ho =>
    rw [hk, ho]
    rfl
  | dollar hk | openGroup hk | openBracket hk | alternation hk | repetition hk =>
    rw [hk]
    rfl

theorem Takes.closesNothing (h : p.Takes t p') :
    (⟨p.outer.length⟩ : Nesting).closesNothing t.kind = false := by
  cases h with
  | element _ h | afterDollar _ h => exact h.closesNothing
  | plainGroup _ hk | star _ hk | repeated _ hk | closeBracket _ hk =>
    rw [hk]
    rfl
  | inBracket _ _ hk =>
    have hne := (TokenKind.ne_of_standsInBracket hk).2.1
    simp [Nesting.closesNothing, hne]

theorem TakesElement.kind_ne (h : p.TakesElement t p') : t.kind ≠ .trailingEscape := by
  cases h with
  | push leaf kind => rcases kind with hk | hk | hk | hk <;> simp [hk]
  | dollar hk | openGroup hk | closeGroup hk | openBracket hk | alternation hk | repetition hk =>
    simp [hk]

theorem Takes.kind_ne (h : p.Takes t p') : t.kind ≠ .trailingEscape := by
  cases h with
  | element _ h | afterDollar _ h => exact h.kind_ne
  | plainGroup _ hk | star _ hk | repeated _ hk | closeBracket _ hk => simp [hk]
  | inBracket _ _ hk =>
    intro ht
    rw [ht] at hk
    cases hk

/-- In a bracket, either it is closed or the parser stays in it. -/
theorem Takes.in_bracket (h : p.Takes t p') (hp : p.expecting.context = .bracket) :
    t.kind = .rBracket ∨ p'.expecting.context = .bracket := by
  cases h with
  | closeBracket _ hk => exact .inl hk
  | inBracket _ next => exact .inr next
  | element context => rcases context with he | he <;> rw [he] at hp <;> cases hp
  | plainGroup context | afterDollar context | star context | repeated context =>
    rw [context] at hp
    cases hp

theorem finish_eq_ok_iff {pattern : Pattern} :
    p.finish = .ok pattern ↔ p.expecting = .element ∧ p.outer = [] ∧ p.group.pattern = pattern := by
  unfold finish
  cases p.expecting <;> cases p.outer <;> simp

end Parser
end IncrementalRegex
