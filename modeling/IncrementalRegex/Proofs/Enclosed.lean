import IncrementalRegex.Proofs.Agreement

namespace IncrementalRegex

namespace TokenReader

variable {k : Nat} {s s' : TokenReader} {t : Token} {ts : List Token}

/-- The reader with `k` more groups open. -/
def inGroups (k : Nat) (s : TokenReader) : TokenReader :=
  { s with nesting := ⟨s.nesting.depth + k⟩ }

theorem after_inGroups {n : Nesting} {kind : TokenKind} (h : n.closesNothing kind = false) :
    Nesting.closesNothing ⟨n.depth + k⟩ kind = false ∧
      Nesting.after ⟨n.depth + k⟩ kind = ⟨(n.after kind).depth + k⟩ := by
  by_cases hk : kind = .rParen
  · subst hk
    have hdepth : n.depth ≠ 0 := by simpa [Nesting.closesNothing] using h
    refine ⟨by simp [Nesting.closesNothing, hdepth], ?_⟩
    simp only [Nesting.after, Nesting.mk.injEq]
    omega
  · refine ⟨by simp [Nesting.closesNothing, hk], ?_⟩
    cases kind with
    | lParen => simp only [Nesting.after, Nat.add_right_comm]
    | rParen => contradiction
    | _ => rfl

theorem read_inGroups (h : s.read = .ok (some (t, s'))) :
    (s.inGroups k).read = .ok (some (t, s'.inGroups k)) := by
  obtain ⟨u, hread, hnesting, rfl⟩ := read_eq_some_iff.mp h
  have hsame : u.nesting = s.nesting := by
    cases readInContext_eq_some_iff.mp hread <;> rfl
  have hcontext : (s.inGroups k).readInContext = .ok (some (t, u.inGroups k)) := by
    rw [readInContext_eq_some_iff] at hread ⊢
    cases hread with
    | expression context hr => exact .expression context hr
    | bracket context hr => exact .bracket context hr
    | group context hr => exact .group context hr
    | element context group hr => exact .element context group hr
  obtain ⟨hcloses, hafter⟩ := after_inGroups (k := k) hnesting
  refine read_eq_some_iff.mpr ⟨u.inGroups k, hcontext, hcloses, ?_⟩
  simp only [inGroups] at hafter ⊢
  rw [hafter]

theorem ReadsTo.inGroups (h : s.ReadsTo ts s') : (s.inGroups k).ReadsTo ts (s'.inGroups k) := by
  induction h with
  | refl => exact .refl _
  | step read _ ih => exact .step (read_inGroups read) ih

/-- The reader directly after an opening parenthesis. -/
def opened (s : TokenReader) : TokenReader := { s with context := .subexpression }

/-- An opening parenthesis makes a difference only to what says of what kind the group is. -/
theorem read_opened (hc : s.context = .expression)
    (hg : (Lexicon.group s.dialect).read s.cursor = .ok none)
    (h : s.read = .ok (some (t, s'))) : s.opened.read = .ok (some (t, s')) := by
  obtain ⟨u, hread, hnesting, rfl⟩ := read_eq_some_iff.mp h
  have hafter (kind : TokenKind) : Context.after .subexpression kind = .after .expression kind := by
    cases kind <;> rfl
  cases readInContext_eq_some_iff.mp hread with
  | @expression r c _ hr =>
    have hopened : s.opened.Reads t { s.opened with expression := r, cursor := c } :=
      .element rfl hg hr
    refine read_eq_some_iff.mpr ⟨_, readInContext_eq_some_iff.mpr hopened, hnesting, ?_⟩
    simp only [opened, hc, hafter]
  | bracket context | group context | element context =>
    rw [hc] at context
    cases context

theorem ReadsTo.opened (hc : s.context = .expression)
    (hg : (Lexicon.group s.dialect).read s.cursor = .ok none) (hne : ts ≠ [])
    (h : s.ReadsTo ts s') : s.opened.ReadsTo ts s' := by
  cases h with
  | refl => contradiction
  | step read later => exact .step (read_opened hc hg read) later

end TokenReader

namespace Parser

variable {gs : List Group} {g : Grammar} {p p' : Parser} {t : Token} {ts : List Token}

/-- The parser with more groups open around the others. -/
def enclose (gs : List Group) (p : Parser) : Parser := { p with outer := p.outer ++ gs }

/-- The parser gets there also with the groups `gs` around it, if it can be nested that deep. -/
inductive Fits (gs : List Group) (p : Parser) : Except Fault Parser → Prop where
  | ok : Fits gs p (.ok (p.enclose gs))
  | tooDeep : Fits gs p (.error .nestedTooDeeply)

theorem Fits.of_ok {x : Except Fault Parser} (h : x = .ok (p.enclose gs)) : Fits gs p x := by
  rw [h]
  exact .ok

theorem OnElement.fits (h : p.OnElement g t p') : Fits gs p' ((p.enclose gs).element g t) := by
  cases h with
  | text kind => exact .of_ok (element_eq_ok_iff.mpr (.text kind))
  | literal kind => exact .of_ok (element_eq_ok_iff.mpr (.literal kind))
  | charClass kind => exact .of_ok (element_eq_ok_iff.mpr (.charClass kind))
  | openGroup kind =>
    rw [element, kind]
    dsimp only [Parser.openGroup]
    split_ifs
    · exact .tooDeep
    · exact .ok
  | closeGroup kind opened =>
    have houter : (p.enclose gs).outer = _ := congrArg (· ++ gs) opened
    exact .of_ok (element_eq_ok_iff.mpr (.closeGroup kind houter))
  | openBracket kind => exact .of_ok (element_eq_ok_iff.mpr (.openBracket kind))
  | alternation kind => exact .of_ok (element_eq_ok_iff.mpr (.alternation kind))
  | leadingStar kind start star =>
    exact .of_ok (element_eq_ok_iff.mpr (.leadingStar kind start star))
  | repetition kind last =>
    have hlast : (p.enclose gs).group.branch = _ := last
    rw [element, kind]
    dsimp only [Parser.repetition]
    rw [hlast]
    dsimp only
    split_ifs
    · exact .tooDeep
    · exact .ok
  | caret kind caret => exact .of_ok (element_eq_ok_iff.mpr (.caret kind caret))
  | dollar kind dollar => exact .of_ok (element_eq_ok_iff.mpr (.dollar kind dollar))

theorem OnUpperBound.enclose {lower : Nat} (h : p.OnUpperBound lower t p') :
    (p.enclose gs).OnUpperBound lower t (p'.enclose gs) := by
  cases h with
  | star kind bounds start => exact .star kind bounds start
  | repeated kind bounds last => exact .repeated kind bounds last

theorem OnItem.enclose {set : CharSet} {rangeStart : Option Char}
    (h : p.OnItem set rangeStart t p') :
    (p.enclose gs).OnItem set rangeStart t (p'.enclose gs) := by
  cases h with
  | close kind => exact .close kind
  | negate kind => exact .negate kind
  | char kind => exact .char kind
  | collate kind element => exact .collate kind element
  | equiv kind element => exact .equiv kind element
  | named kind name => exact .named kind name
  | escape kind letter => exact .escape kind letter
  | dash kind known => exact .dash kind known

theorem OnRangeEnd.enclose {set : CharSet} {start : Char} (h : p.OnRangeEnd set start t p') :
    (p.enclose gs).OnRangeEnd set start t (p'.enclose gs) := by
  cases h with
  | char kind range => exact .char kind range
  | collate kind element range => exact .collate kind element range

theorem OnToken.fits (h : p.OnToken g t p') : Fits gs p' ((p.enclose gs).step g t) := by
  have hexpecting : (p.enclose gs).expecting = p.expecting := rfl
  cases h with
  | element context h =>
    rw [step, hexpecting, context]
    exact h.fits
  | qualifier context kind => exact .of_ok (step_eq_ok_iff.mpr (.qualifier context kind))
  | groupStart context h =>
    rw [step_eq_element (hexpecting.trans context) h.not_qualifier]
    exact h.fits
  | afterDollar context later h =>
    rw [step, hexpecting, context]
    dsimp only
    rw [if_neg later]
    exact h.fits
  | upperBound context h => exact .of_ok (step_eq_ok_iff.mpr (.upperBound context h.enclose))
  | item context h => exact .of_ok (step_eq_ok_iff.mpr (.item context h.enclose))
  | rangeEnd context h => exact .of_ok (step_eq_ok_iff.mpr (.rangeEnd context h.enclose))

theorem takeAll_fits (h : p.takeAll g ts = .ok p') : Fits gs p' ((p.enclose gs).takeAll g ts) := by
  induction ts generalizing p with
  | nil =>
    cases h
    exact .ok
  | cons t ts ih =>
    cases hs : p.step g t with
    | error f =>
      rw [takeAll_of_error hs] at h
      cases h
    | ok q =>
      rw [takeAll_cons hs] at h
      have hfits : Fits gs q ((p.enclose gs).step g t) := (step_eq_ok_iff.mp hs).fits
      generalize hx : (p.enclose gs).step g t = x at hfits
      cases hfits with
      | ok =>
        rw [takeAll_cons hx]
        exact ih h
      | tooDeep =>
        rw [takeAll_of_error hx]
        exact .tooDeep

end Parser
end IncrementalRegex
