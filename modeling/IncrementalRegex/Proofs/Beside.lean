import IncrementalRegex.Proofs.Taking

namespace IncrementalRegex

/-- The group with further branches before its own. -/
def Group.add (extra : List Pattern) (g : Group) : Group :=
  { g with branches := g.branches ++ extra }

/-- The outermost of the open groups, and nothing else, has further branches before its own. -/
inductive Extends (extra : List Pattern) : List Group → List Group → Prop where
  | last (g : Group) : Extends extra [g] [g.add extra]
  | cons {gs gs' : List Group} (g : Group) (h : Extends extra gs gs') :
      Extends extra (g :: gs) (g :: gs')

namespace Extends

variable {extra : List Pattern} {g g' : Group} {gs gs' : List Group}

theorem branch_eq (h : Extends extra (g :: gs) (g' :: gs')) : g'.branch = g.branch := by
  cases h <;> rfl

theorem length_eq (h : Extends extra gs gs') : gs'.length = gs.length := by
  induction h with
  | last => rfl
  | cons g _ ih => rw [List.length_cons, List.length_cons, ih]

theorem of_cons_cons {g₁ : Group} (h : Extends extra (g :: g₁ :: gs) (g' :: gs')) :
    ∃ g₁' gs₁', gs' = g₁' :: gs₁' ∧ g' = g ∧ Extends extra (g₁ :: gs) (g₁' :: gs₁') := by
  cases h with
  | cons _ h =>
    cases gs' with
    | nil => cases h
    | cons g₁' gs₁' => exact ⟨g₁', gs₁', rfl, rfl, h⟩

/-- What is done to the innermost group alone does not see the further branches. -/
theorem map_head {f : Group → Group} (hf : ∀ g, f (g.add extra) = (f g).add extra)
    (h : Extends extra (g :: gs) (g' :: gs')) : Extends extra (f g :: gs) (f g' :: gs') := by
  cases h with
  | last =>
    rw [hf]
    exact .last _
  | cons _ h => exact .cons _ h

end Extends

namespace Parser

/-- The same parser, with further branches before those of the whole pattern. -/
structure Beside (extra : List Pattern) (p q : Parser) : Prop where
  groups : Extends extra (p.group :: p.outer) (q.group :: q.outer)
  expecting : q.expecting = p.expecting
  /-- Before the first element of a branch the number means nothing. -/
  stacked : p.group.branch ≠ [] → q.stacked = p.stacked

variable {extra : List Pattern} {g : Grammar} {p p' q : Parser} {t : Token}

theorem Beside.branch_eq (h : Beside extra p q) : q.group.branch = p.group.branch :=
  h.groups.branch_eq

theorem Beside.length_eq (h : Beside extra p q) : q.outer.length = p.outer.length := by
  simpa using h.groups.length_eq

theorem Beside.push (h : Beside extra p q) (e : Pattern) : Beside extra (p.push e) (q.push e) where
  groups := h.groups.map_head (f := (·.push e)) fun _ => rfl
  expecting := rfl
  stacked _ := rfl

theorem Beside.expect (h : Beside extra p q) (e : Expecting) :
    Beside extra (p.expect e) (q.expect e) where
  groups := h.groups
  expecting := rfl
  stacked := h.stacked

theorem OnElement.beside (h : p.OnElement g t p') (hb : Beside extra p q) :
    ∃ q', q.OnElement g t q' ∧ Beside extra p' q' := by
  have hbranch := hb.branch_eq
  have hlength := hb.length_eq
  cases h with
  | text kind => exact ⟨_, .text kind, hb.push _⟩
  | literal kind => exact ⟨_, .literal kind, hb.push _⟩
  | charClass kind => exact ⟨_, .charClass kind, hb.push _⟩
  | openGroup kind room =>
    rw [← hlength] at room
    exact ⟨_, .openGroup kind room, .cons _ hb.groups, rfl, fun _ => rfl⟩
  | closeGroup kind opened =>
    have hgroups := hb.groups
    rw [opened] at hgroups
    obtain ⟨group, outer, houter, hgroup, hgroups⟩ := hgroups.of_cons_cons
    refine ⟨_, .closeGroup kind houter, ?_, rfl, fun _ => rfl⟩
    rw [hgroup]
    exact hgroups.map_head (f := (·.push p.group.pattern)) fun _ => rfl
  | openBracket kind => exact ⟨_, .openBracket kind, hb.expect _⟩
  | alternation kind =>
    refine ⟨_, .alternation kind, hb.groups.map_head (f := Group.closeBranch) fun _ => rfl, rfl, ?_⟩
    exact fun hne => absurd rfl hne
  | leadingStar kind start star =>
    exact ⟨_, .leadingStar kind (hbranch.trans start) star, hb.expect _⟩
  | repetition kind last room =>
    have hstacked : q.stacked = p.stacked := hb.stacked (by simp [last])
    rw [← hlength, ← hstacked] at room
    exact ⟨_, .repetition kind (hbranch.trans last) room, hb.expect _⟩
  | caret kind caret =>
    rw [← hbranch] at caret
    exact ⟨_, .caret kind caret, hb.push _⟩
  | dollar kind dollar => exact ⟨_, .dollar kind dollar, hb.expect _⟩

theorem OnUpperBound.beside {lower : Nat} (h : p.OnUpperBound lower t p') (hb : Beside extra p q) :
    ∃ q', q.OnUpperBound lower t q' ∧ Beside extra p' q' := by
  cases h with
  | star kind bounds start => exact ⟨_, .star kind bounds (hb.branch_eq.trans start), hb.push _⟩
  | @repeated b e es kind bounds last =>
    have hstacked : q.stacked = p.stacked := hb.stacked (by simp [last])
    let wrap (g : Group) : Group := { g with branch := .repeated e b :: es }
    exact ⟨_, .repeated kind bounds (hb.branch_eq.trans last),
      hb.groups.map_head (f := wrap) fun _ => rfl, rfl, fun _ => congrArg (· + 1) hstacked⟩

theorem OnItem.beside {set : CharSet} {rangeStart : Option Char} (h : p.OnItem set rangeStart t p')
    (hb : Beside extra p q) : ∃ q', q.OnItem set rangeStart t q' ∧ Beside extra p' q' := by
  cases h with
  | close kind => exact ⟨_, .close kind, hb.push _⟩
  | negate kind => exact ⟨_, .negate kind, hb.expect _⟩
  | char kind => exact ⟨_, .char kind, hb.expect _⟩
  | collate kind element => exact ⟨_, .collate kind element, hb.expect _⟩
  | equiv kind element => exact ⟨_, .equiv kind element, hb.expect _⟩
  | named kind name => exact ⟨_, .named kind name, hb.expect _⟩
  | escape kind letter => exact ⟨_, .escape kind letter, hb.expect _⟩
  | dash kind known => exact ⟨_, .dash kind known, hb.expect _⟩

theorem OnRangeEnd.beside {set : CharSet} {start : Char} (h : p.OnRangeEnd set start t p')
    (hb : Beside extra p q) : ∃ q', q.OnRangeEnd set start t q' ∧ Beside extra p' q' := by
  cases h with
  | char kind range => exact ⟨_, .char kind range, hb.expect _⟩
  | collate kind element range => exact ⟨_, .collate kind element range, hb.expect _⟩

theorem OnToken.beside (h : p.OnToken g t p') (hb : Beside extra p q) :
    ∃ q', q.OnToken g t q' ∧ Beside extra p' q' := by
  have hexpecting := hb.expecting
  cases h with
  | element context h =>
    obtain ⟨q', h, hb⟩ := h.beside hb
    exact ⟨q', .element (hexpecting.trans context) h, hb⟩
  | qualifier context kind =>
    exact ⟨_, .qualifier (hexpecting.trans context) kind, hb.expect _⟩
  | groupStart context h =>
    obtain ⟨q', h, hb⟩ := h.beside hb
    exact ⟨q', .groupStart (hexpecting.trans context) h, hb⟩
  | afterDollar context later h =>
    obtain ⟨q', h, hb⟩ := h.beside (hb.push _)
    exact ⟨q', .afterDollar (hexpecting.trans context) later h, hb⟩
  | upperBound context h =>
    obtain ⟨q', h, hb⟩ := h.beside hb
    exact ⟨q', .upperBound (hexpecting.trans context) h, hb⟩
  | item context h =>
    obtain ⟨q', h, hb⟩ := h.beside hb
    exact ⟨q', .item (hexpecting.trans context) h, hb⟩
  | rangeEnd context h =>
    obtain ⟨q', h, hb⟩ := h.beside hb
    exact ⟨q', .rangeEnd (hexpecting.trans context) h, hb⟩

theorem finish_beside {pattern : Pattern} (h : Beside extra p q) (hp : p.finish = .ok pattern) :
    q.finish = .ok (.join .either
      (extra.reverse ++ p.group.closeBranch.branches.reverse)) := by
  obtain ⟨hexpecting, houter, -⟩ := finish_eq_ok_iff.mp hp
  have hgroups := h.groups
  rw [houter] at hgroups
  obtain ⟨group, outer, stacked, expecting⟩ := q
  cases hgroups with
  | last =>
    refine finish_eq_ok_iff.mpr ⟨h.expecting.trans hexpecting, rfl, ?_⟩
    simp [Group.pattern, Group.closeBranch]
  | cons _ hgroups => cases hgroups

end Parser

variable {extra : List Pattern} {g : Grammar} {s s' : TokenReader} {p p' q : Parser}

theorem Reaches.beside (h : Reaches g s p s' p') (hb : Parser.Beside extra p q) :
    ∃ q', Reaches g s q s' q' ∧ Parser.Beside extra p' q' := by
  induction h generalizing q with
  | refl => exact ⟨q, .refl .., hb⟩
  | step read take _ ih =>
    obtain ⟨q₁, htake, hb⟩ := (Parser.step_eq_ok_iff.mp take).beside hb
    obtain ⟨q₂, hreaches, hb⟩ := ih hb
    exact ⟨q₂, .step read (Parser.step_eq_ok_iff.mpr htake) hreaches, hb⟩

end IncrementalRegex
