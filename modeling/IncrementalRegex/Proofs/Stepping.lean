import IncrementalRegex.Pattern.Parse
import Mathlib.Tactic.SplitIfs

namespace IncrementalRegex

/-- Kinds that only say what kind of group an opening parenthesis opens. -/
def TokenKind.qualifiesGroup : TokenKind → Bool
  | positiveLookahead | negativeLookahead | noSubexp => true
  | _ => false

namespace Parser

/-- What comes of a token where an element may stand. -/
inductive OnElement (g : Grammar) (p : Parser) (t : Token) : Parser → Prop where
  | text (kind : t.kind = .stringLiteral) : OnElement g p t (p.push (.ofText t.string))
  | literal (kind : t.kind = .literal) : OnElement g p t (p.push (.one t.char))
  | charClass (kind : t.kind = .charClass) :
      OnElement g p t (p.push (Parser.charClass g.dialect t.char))
  | openGroup (kind : t.kind = .lParen) (room : ¬ nestingLimit < p.outer.length + 1) :
      OnElement g p t { outer := p.group :: p.outer, expecting := .groupStart }
  | closeGroup {group : Group} {outer : List Group} (kind : t.kind = .rParen)
      (opened : p.outer = group :: outer) :
      OnElement g p t ({ p with group, outer }.push p.group.pattern)
  | openBracket (kind : t.kind = .lBracket) :
      OnElement g p t (p.expect (.bracketItem { ignoreCase := g.ignoreCase } none))
  | alternation (kind : t.kind = .alternation) :
      OnElement g p t { p with group := p.group.closeBranch, expecting := .element }
  | leadingStar (kind : t.kind = .repLower) (start : p.group.branch = [])
      (star : g.dialect.isBasic ∧ t.char = '*') : OnElement g p t (p.expect (.upperBound t.count))
  | repetition {e : Pattern} {es : List Pattern} (kind : t.kind = .repLower)
      (last : p.group.branch = e :: es)
      (room : ¬ nestingLimit < p.outer.length + (p.stacked + 1)) :
      OnElement g p t (p.expect (.upperBound t.count))
  | caret (kind : t.kind = .assertion)
      (caret : g.dialect.isBasic ∧ t.char = '^' ∧ p.group.branch ≠ []) :
      OnElement g p t (p.push (.one '^'))
  | dollar (kind : t.kind = .assertion) (dollar : g.dialect.isBasic ∧ t.char = '$') :
      OnElement g p t (p.expect .branchEnd)

/-- What comes of an upper bound. -/
inductive OnUpperBound (p : Parser) (lower : Nat) (t : Token) : Parser → Prop where
  | star {b : Bounds} (kind : t.kind = .repUpper) (bounds : Bounds.between? lower t.count = some b)
      (start : p.group.branch = []) : OnUpperBound p lower t (p.push (.one '*'))
  | repeated {b : Bounds} {e : Pattern} {es : List Pattern} (kind : t.kind = .repUpper)
      (bounds : Bounds.between? lower t.count = some b) (last : p.group.branch = e :: es) :
      OnUpperBound p lower t { p with
        group := { p.group with branch := .repeated e b :: es }
        stacked := p.stacked + 1
        expecting := .element }

/-- What comes of a token in a bracket. -/
inductive OnItem (p : Parser) (set : CharSet) (rangeStart : Option Char) (t : Token) :
    Parser → Prop where
  | close (kind : t.kind = .rBracket) :
      OnItem p set rangeStart t (p.push (.satisfying (.inSet set)))
  | negate (kind : t.kind = .negation) :
      OnItem p set rangeStart t (p.expect (.bracketItem set.negate none))
  | char (kind : t.kind = .bracketLiteral) :
      OnItem p set rangeStart t (p.expect (.bracketItem (set.addChar t.char) (some t.char)))
  | collate {c : Char} (kind : t.kind = .collate) (element : singleElement t.string = .ok c) :
      OnItem p set rangeStart t (p.expect (.bracketItem (set.addChar c) (some c)))
  | equiv {c : Char} (kind : t.kind = .equiv) (element : singleElement t.string = .ok c) :
      OnItem p set rangeStart t (p.expect (.bracketItem (set.addChar c) none))
  | named {k : CharClass} (kind : t.kind = .className) (name : CharClass.ofName? t.string = .ok k) :
      OnItem p set rangeStart t (p.expect (.bracketItem (set.addClass k false) none))
  | escape {k : CharClass} {outside : Bool} (kind : t.kind = .charClass)
      (letter : CharClass.ofEscape? t.char = some (k, outside)) :
      OnItem p set rangeStart t (p.expect (.bracketItem (set.addClass k outside) none))
  | dash {start : Char} (kind : t.kind = .rangeDash) (known : rangeStart = some start) :
      OnItem p set rangeStart t (p.expect (.rangeEnd set start))

/-- What comes of the end of a range. -/
inductive OnRangeEnd (p : Parser) (set : CharSet) (start : Char) (t : Token) : Parser → Prop where
  | char {set' : CharSet} (kind : t.kind = .bracketLiteral)
      (range : set.addRange start t.char = .ok set') :
      OnRangeEnd p set start t (p.expect (.bracketItem set' none))
  | collate {last : Char} {set' : CharSet} (kind : t.kind = .collate)
      (element : singleElement t.string = .ok last) (range : set.addRange start last = .ok set') :
      OnRangeEnd p set start t (p.expect (.bracketItem set' none))

/-- What comes of a token. -/
inductive OnToken (g : Grammar) (p : Parser) (t : Token) : Parser → Prop where
  | element {p' : Parser} (context : p.expecting = .element) (h : OnElement g p t p') :
      OnToken g p t p'
  | qualifier (context : p.expecting = .groupStart) (kind : t.kind = .noSubexp) :
      OnToken g p t (p.expect .element)
  | groupStart {p' : Parser} (context : p.expecting = .groupStart) (h : OnElement g p t p') :
      OnToken g p t p'
  | afterDollar {p' : Parser} (context : p.expecting = .branchEnd)
      (later : ¬ (t.kind = .alternation ∨ t.kind = .rParen))
      (h : OnElement g (p.push (.one '$')) t p') : OnToken g p t p'
  | upperBound {lower : Nat} {p' : Parser} (context : p.expecting = .upperBound lower)
      (h : OnUpperBound p lower t p') : OnToken g p t p'
  | item {set : CharSet} {rangeStart : Option Char} {p' : Parser}
      (context : p.expecting = .bracketItem set rangeStart) (h : OnItem p set rangeStart t p') :
      OnToken g p t p'
  | rangeEnd {set : CharSet} {start : Char} {p' : Parser}
      (context : p.expecting = .rangeEnd set start) (h : OnRangeEnd p set start t p') :
      OnToken g p t p'

variable {g : Grammar} {p p' : Parser} {t : Token}

theorem repetition_eq_ok (hk : t.kind = .repLower) (h : p.repetition g.dialect t = .ok p') :
    p.OnElement g t p' := by
  unfold repetition at h
  cases hb : p.group.branch with
  | nil =>
    rw [hb] at h
    dsimp only at h
    split_ifs at h with hstar
    cases h
    exact .leadingStar hk hb hstar
  | cons e es =>
    rw [hb] at h
    dsimp only at h
    split_ifs at h with hroom
    cases h
    exact .repetition hk hb hroom

theorem assertion_eq_ok (hk : t.kind = .assertion) (h : p.assertion g.dialect t.char = .ok p') :
    p.OnElement g t p' := by
  unfold assertion at h
  split_ifs at h with hcaret hdollar
  · cases h
    exact .caret hk hcaret
  · cases h
    exact .dollar hk hdollar

theorem element_eq_ok_iff : p.element g t = .ok p' ↔ p.OnElement g t p' := by
  constructor
  · intro h
    unfold element at h
    cases hk : t.kind <;> rw [hk] at h
    case stringLiteral => cases h; exact .text hk
    case literal => cases h; exact .literal hk
    case charClass => cases h; exact .charClass hk
    case lParen =>
      dsimp only [Parser.openGroup] at h
      split_ifs at h with hroom
      cases h
      exact .openGroup hk hroom
    case rParen =>
      dsimp only [Parser.closeGroup] at h
      cases houter : p.outer with
      | nil =>
        rw [houter] at h
        cases h
      | cons group outer =>
        rw [houter] at h
        cases h
        exact .closeGroup hk houter
    case lBracket => cases h; exact .openBracket hk
    case alternation => cases h; exact .alternation hk
    case repLower => exact repetition_eq_ok hk h
    case assertion => exact assertion_eq_ok hk h
    all_goals cases h
  · intro h
    cases h with
    | text kind | literal kind | charClass kind | openBracket kind | alternation kind =>
      rw [element, kind]
    | openGroup kind room =>
      rw [element, kind]
      exact if_neg room
    | closeGroup kind opened =>
      rw [element, kind]
      dsimp only [Parser.closeGroup]
      rw [opened]
    | leadingStar kind start star =>
      rw [element, kind]
      dsimp only [Parser.repetition]
      rw [start]
      exact if_pos star
    | repetition kind last room =>
      rw [element, kind]
      dsimp only [Parser.repetition]
      rw [last]
      exact if_neg room
    | caret kind caret =>
      rw [element, kind]
      exact if_pos caret
    | dollar kind dollar =>
      have hcaret : ¬ (g.dialect.isBasic ∧ t.char = '^' ∧ p.group.branch ≠ []) := by
        rw [dollar.2]
        simp
      rw [element, kind]
      dsimp only [Parser.assertion]
      rw [if_neg hcaret, if_pos dollar]

theorem upperBound_eq_ok_iff {lower : Nat} :
    p.upperBound lower t = .ok p' ↔ p.OnUpperBound lower t p' := by
  constructor
  · intro h
    unfold upperBound at h
    split_ifs at h with hk
    cases hb : Bounds.between? lower t.count with
    | none =>
      rw [hb] at h
      cases h
    | some b =>
      rw [hb] at h
      cases hbranch : p.group.branch with
      | nil =>
        rw [hbranch] at h
        cases h
        exact .star hk hb hbranch
      | cons e es =>
        rw [hbranch] at h
        cases h
        exact .repeated hk hb hbranch
  · intro h
    cases h with
    | star kind bounds start =>
      rw [upperBound, if_pos kind, bounds, start]
    | repeated kind bounds last =>
      rw [upperBound, if_pos kind, bounds, last]

theorem bracketItem_eq_ok_iff {set : CharSet} {rangeStart : Option Char} :
    p.bracketItem set rangeStart t = .ok p' ↔ p.OnItem set rangeStart t p' := by
  constructor
  · intro h
    unfold bracketItem at h
    cases hk : t.kind <;> rw [hk] at h
    case rBracket => cases h; exact .close hk
    case negation => cases h; exact .negate hk
    case bracketLiteral => cases h; exact .char hk
    case collate =>
      obtain ⟨c, hc, h⟩ := bind_eq_ok.1 h
      cases h
      exact .collate hk hc
    case equiv =>
      obtain ⟨c, hc, h⟩ := bind_eq_ok.1 h
      cases h
      exact .equiv hk hc
    case className =>
      dsimp only at h
      cases hname : CharClass.ofName? t.string with
      | error e =>
        rw [hname] at h
        cases h
      | ok k =>
        rw [hname] at h
        cases h
        exact .named hk hname
    case charClass =>
      dsimp only at h
      cases hletter : CharClass.ofEscape? t.char with
      | none =>
        rw [hletter] at h
        cases h
      | some k =>
        rw [hletter] at h
        cases h
        exact .escape hk hletter
    case rangeDash =>
      cases rangeStart with
      | none => cases h
      | some start => cases h; exact .dash hk rfl
    all_goals cases h
  · intro h
    cases h with
    | close kind | negate kind | char kind => rw [bracketItem.eq_def, kind]
    | collate kind element | equiv kind element =>
      rw [bracketItem.eq_def, kind]
      exact bind_eq_ok.2 ⟨_, element, rfl⟩
    | named kind name =>
      rw [bracketItem.eq_def, kind]
      dsimp only
      rw [name]
    | escape kind letter =>
      rw [bracketItem.eq_def, kind]
      dsimp only
      rw [letter]
    | dash kind known => rw [bracketItem.eq_def, kind, known]

theorem addRange_eq_ok_iff {set : CharSet} {start last : Char} :
    (match set.addRange start last with
      | .ok set => .ok (p.expect (.bracketItem set none))
      | .error _ => .error .reversedRange : Except Fault Parser) = .ok p' ↔
      ∃ set', set.addRange start last = .ok set' ∧ p.expect (.bracketItem set' none) = p' := by
  cases set.addRange start last <;> simp

theorem rangeEnd_eq_ok_iff {set : CharSet} {start : Char} :
    p.rangeEnd set start t = .ok p' ↔ p.OnRangeEnd set start t p' := by
  constructor
  · intro h
    unfold rangeEnd at h
    dsimp only at h
    cases hk : t.kind <;> rw [hk] at h
    case bracketLiteral =>
      obtain ⟨last, hlast, h⟩ := bind_eq_ok.1 h
      obtain ⟨set', hrange, rfl⟩ := addRange_eq_ok_iff.mp h
      cases hlast
      exact .char hk hrange
    case collate =>
      obtain ⟨last, hlast, h⟩ := bind_eq_ok.1 h
      obtain ⟨set', hrange, rfl⟩ := addRange_eq_ok_iff.mp h
      exact .collate hk hlast hrange
    all_goals cases h
  · intro h
    cases h with
    | char kind range =>
      rw [rangeEnd, kind]
      exact bind_eq_ok.2 ⟨_, rfl, addRange_eq_ok_iff.mpr ⟨_, range, rfl⟩⟩
    | collate kind element range =>
      rw [rangeEnd, kind]
      exact bind_eq_ok.2 ⟨_, element, addRange_eq_ok_iff.mpr ⟨_, range, rfl⟩⟩

theorem OnElement.not_qualifier (h : p.OnElement g t p') : t.kind.qualifiesGroup = false := by
  cases h with
  | text kind | literal kind | charClass kind | openGroup kind | closeGroup kind
  | openBracket kind | alternation kind | leadingStar kind | repetition kind | caret kind
  | dollar kind => rw [kind]; rfl

/-- A group starts like any element, unless it is said of what kind it is. -/
theorem step_eq_element (he : p.expecting = .groupStart) (hk : t.kind.qualifiesGroup = false) :
    p.step g t = p.element g t := by
  rw [step, he]
  cases ht : t.kind <;> rw [ht] at hk
  case noSubexp => cases hk
  case positiveLookahead => cases hk
  case negativeLookahead => cases hk

theorem step_eq_ok_iff : p.step g t = .ok p' ↔ p.OnToken g t p' := by
  constructor
  · intro h
    unfold step at h
    cases he : p.expecting <;> rw [he] at h
    case element => exact .element he (element_eq_ok_iff.mp h)
    case groupStart =>
      dsimp only at h
      cases hk : t.kind <;> rw [hk] at h
      case noSubexp => cases h; exact .qualifier he hk
      case positiveLookahead => cases h
      case negativeLookahead => cases h
      all_goals exact .groupStart he (element_eq_ok_iff.mp h)
    case branchEnd =>
      dsimp only at h
      split_ifs at h with hk
      exact .afterDollar he hk (element_eq_ok_iff.mp h)
    case upperBound lower => exact .upperBound he (upperBound_eq_ok_iff.mp h)
    case bracketItem set rangeStart => exact .item he (bracketItem_eq_ok_iff.mp h)
    case rangeEnd set start => exact .rangeEnd he (rangeEnd_eq_ok_iff.mp h)
  · intro h
    cases h with
    | element context h =>
      rw [step, context]
      exact element_eq_ok_iff.mpr h
    | qualifier context kind => rw [step, context, kind]
    | groupStart context h =>
      rw [step_eq_element context h.not_qualifier]
      exact element_eq_ok_iff.mpr h
    | afterDollar context later h =>
      rw [step, context]
      exact (if_neg later).trans (element_eq_ok_iff.mpr h)
    | upperBound context h =>
      rw [step, context]
      exact upperBound_eq_ok_iff.mpr h
    | item context h =>
      rw [step, context]
      exact bracketItem_eq_ok_iff.mpr h
    | rangeEnd context h =>
      rw [step, context]
      exact rangeEnd_eq_ok_iff.mpr h

end Parser
end IncrementalRegex
