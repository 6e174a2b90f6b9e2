import IncrementalRegex.Proofs.Iteration
import IncrementalRegex.Pattern.Parse

namespace IncrementalRegex

namespace TokenReader

variable {s s' : TokenReader} {t : Token}

/-- Falls with every token that is got, and rises by one with every token that is given back. -/
def size (s : TokenReader) : Nat := s.weight + s.returned.size

theorem size_giveBack (s : TokenReader) (t : Token) : (s.giveBack t).size = s.size + 1 := by
  simp only [size, giveBack, Queue.size_push, weight]
  omega

theorem size_get (h : s.get = (.ok (some t), s')) : s'.size < s.size := by
  cases gets_of_get h with
  | returned _ pop =>
    have hsize := Queue.size_pop pop
    simp only [size, weight]
    omega
  | token _ _ read =>
    have hweight := weight_read read
    have hkept := (read_keeps read).1
    simp only [size, hkept]
    omega

end TokenReader

namespace Descent

/-- The next token and what is left then, if a token is left. -/
def take (s : TokenReader) :
    Except ParseError (Option (Token × {s' : TokenReader // s'.size < s.size})) :=
  match _get : s.get with
  | (.ok (some t), s') => .ok (some (t, ⟨s', TokenReader.size_get _get⟩))
  | (.ok none, _) => .ok none
  | (.error e, _) => .error (.token e)

/-- What has been read, and what is left of `s` then. -/
structure Reading (s : TokenReader) (β : Type) where
  value : β
  rest : TokenReader
  le : rest.size ≤ s.size

namespace Reading

variable {β γ : Type} {s s' : TokenReader}

/-- Nothing is read. -/
def nothing (s : TokenReader) (x : β) : Reading s β := ⟨x, s, Nat.le_refl _⟩

/-- One token is read. -/
def token (h : s'.size < s.size) (x : β) : Reading s β := ⟨x, s', Nat.le_of_lt h⟩

/-- A token is got and given back. -/
def upTo (h : s'.size < s.size) (x : β) (t : Token) : Reading s β :=
  ⟨x, s'.giveBack t, s'.size_giveBack t ▸ h⟩

def map (f : β → γ) (r : Reading s β) : Reading s γ := ⟨f r.value, r.rest, r.le⟩

/-- What is read after a token. -/
def after (h : s'.size < s.size) (r : Reading s' β) : Reading s β :=
  ⟨r.value, r.rest, Nat.le_trans r.le (Nat.le_of_lt h)⟩

/-- What is read after something else. -/
def next (r : Reading s β) (r' : Reading r.rest γ) : Reading s γ :=
  ⟨r'.value, r'.rest, Nat.le_trans r'.le r.le⟩

end Reading

variable {β : Type}

/-- A fault that the tokens before `s` show. -/
def fault (s : TokenReader) (f : Fault) : Except ParseError β := .error (.grammar f s.offset)

def orFault (s : TokenReader) (x : Except Fault β) : Except ParseError β :=
  x.mapError (.grammar · s.offset)

/-- The upper bound that goes with a lower bound read just before. -/
def bounds (lower : Nat) (s : TokenReader) : Except ParseError (Reading s Bounds) := do
  match ← take s with
  | none => fault s .missingUpperBound
  | some (t, ⟨s', hs'⟩) =>
    if t.kind = .repUpper then
      match Bounds.between? lower t.count with
      | none => fault s' .reversedBounds
      | some b => return .token hs' b
    else fault s' .missingUpperBound

/-- A set with the range from `start` to what a token stands for. -/
def withRange (set : CharSet) (start : Char) (t : Token) : Except Fault CharSet := do
  let last ← match t.kind with
    | .bracketLiteral => pure t.char
    | .collate => Parser.singleElement t.string
    | _ => .error .badRangeEnd
  (set.addRange start last).mapError fun _ => .reversedRange

/-- The end of a range in a bracket, and the set with that range. -/
def rangeEnd (set : CharSet) (start : Char) (s : TokenReader) :
    Except ParseError (Reading s CharSet) := do
  match ← take s with
  | none => fault s .unclosedBracket
  | some (t, ⟨s', hs'⟩) => return .token hs' (← orFault s' (withRange set start t))

/-- The rest of a bracket, with the character that a range may start with. -/
def bracket (set : CharSet) (rangeStart : Option Char) (s : TokenReader) :
    Except ParseError (Reading s CharSet) := do
  match ← take s with
  | none => fault s .unclosedBracket
  | some (t, ⟨s', hs'⟩) =>
    match t.kind with
    | .rBracket => return .token hs' set
    | .negation => return (← bracket set.negate none s').after hs'
    | .bracketLiteral => return (← bracket (set.addChar t.char) (some t.char) s').after hs'
    | .collate =>
      let c ← orFault s' (Parser.singleElement t.string)
      return (← bracket (set.addChar c) (some c) s').after hs'
    | .equiv =>
      let c ← orFault s' (Parser.singleElement t.string)
      return (← bracket (set.addChar c) none s').after hs'
    | .className =>
      match CharClass.ofName? t.string with
      | .ok k => return (← bracket (set.addClass k false) none s').after hs'
      | .error _ => fault s' .unknownClass
    | .charClass =>
      match CharClass.ofEscape? t.char with
      | some (k, outside) => return (← bracket (set.addClass k outside) none s').after hs'
      | none => fault s' .unknownClassEscape
    | .rangeDash =>
      match rangeStart with
      | none => fault s' .dashWithoutStart
      | some start =>
        let r ← rangeEnd set start s'
        have := r.le
        let r' ← bracket r.value none r.rest
        return (r.next r').after hs'
    | _ => fault s' .strayInBracket
termination_by s.size

/-- Whether a token of this kind ends a branch. -/
def endsBranch (kind : TokenKind) : Bool := kind == .alternation || kind == .rParen

/-- How a descent through the tokens is made in `m`.  Each token is got when it is wanted, and given
back when it turns out to belong to what comes next. -/
structure Manner (m : Type → Type) where
  /-- Something is done that gives no token back. -/
  lift {β : Type} : Except ParseError β → m β
  /-- A token that was got last is given back. -/
  upTo {β : Type} {s s' : TokenReader} : s'.size < s.size → β → Token → m (Reading s β)

namespace Manner

variable {m : Type → Type} [Monad m]

/-- The repetitions stacked on an element, after the first `stacked` of them. -/
def repetitions (w : Manner m) (depth : Nat) (p : Pattern) (stacked : Nat) (s : TokenReader) :
    m (Reading s Pattern) := do
  match ← w.lift (take s) with
  | none => return .nothing s p
  | some (t, ⟨s', hs'⟩) =>
    if t.kind = .repLower then
      if nestingLimit < depth + (stacked + 1) then w.lift (fault s' .nestedTooDeeply)
      else
        let b ← w.lift (bounds t.count s')
        have := b.le
        let r ← w.repetitions depth (.repeated p b.value) (stacked + 1) b.rest
        return (b.next r).after hs'
    else w.upTo hs' p t
termination_by s.size

/-- Whether the branch ends here; the token that tells is given back. -/
def atBranchEnd (w : Manner m) (s : TokenReader) : m (Reading s Bool) := do
  match ← w.lift (take s) with
  | none => return .nothing s true
  | some (t, ⟨_, hs'⟩) => w.upTo hs' (endsBranch t.kind) t

/-- An assertion that has been read.  Anchors are refused. -/
def assertion (w : Manner m) (d : Dialect) (anchor : Char) (atStart : Bool) (s : TokenReader) :
    m (Reading s Pattern) := do
  if d.isBasic ∧ anchor = '^' ∧ ¬ atStart then return .nothing s (.one '^')
  else if d.isBasic ∧ anchor = '$' then
    let r ← w.atBranchEnd s
    if r.value then w.lift (fault r.rest .anchor)
    else return r.map fun _ => .one '$'
  else w.lift (fault s .anchor)

/-- The first token of a group, which may say what kind of group it is. -/
def groupStart (w : Manner m) (s : TokenReader) : m (Reading s Unit) := do
  match ← w.lift (take s) with
  | none => w.lift (fault s .unclosedGroup)
  | some (t, ⟨s', hs'⟩) =>
    match t.kind with
    | .noSubexp => return .token hs' ()
    | .positiveLookahead | .negativeLookahead => w.lift (fault s' .lookahead)
    | _ => w.upTo hs' () t

mutual

/-- Branches with a bar between any two, in `depth` groups. -/
def alternation (w : Manner m) (g : Grammar) (depth : Nat) (s : TokenReader) :
    m (Reading s Pattern) := do
  let first ← w.branch g depth [] s
  have := first.le
  let all ← w.alternatives g depth [first.value] first.rest
  return (first.next all).map fun branches => .join .either branches.reverse
termination_by 4 * s.size + 2

/-- The branches after the first ones, the latest first. -/
def alternatives (w : Manner m) (g : Grammar) (depth : Nat) (branches : List Pattern)
    (s : TokenReader) : m (Reading s (List Pattern)) := do
  match ← w.lift (take s) with
  | none => return .nothing s branches
  | some (t, ⟨s', hs'⟩) =>
    if t.kind = .alternation then
      let b ← w.branch g depth [] s'
      have := b.le
      let all ← w.alternatives g depth (b.value :: branches) b.rest
      return (b.next all).after hs'
    else w.upTo hs' branches t
termination_by 4 * s.size

/-- A branch that goes on after some elements, the latest first. -/
def branch (w : Manner m) (g : Grammar) (depth : Nat) (elements : List Pattern)
    (s : TokenReader) : m (Reading s Pattern) := do
  match ← w.lift (take s) with
  | none => return .nothing s (.join .concat elements.reverse)
  | some (t, ⟨s', hs'⟩) =>
    if endsBranch t.kind then w.upTo hs' (.join .concat elements.reverse) t
    else
      let e ← w.element g depth elements.isEmpty t s'
      have := e.le
      let p ← w.repetitions depth e.value 0 e.rest
      have := p.le
      let r ← w.branch g depth (p.value :: elements) p.rest
      return (e.next (p.next r)).after hs'
termination_by 4 * s.size + 1

/-- The element that `t` begins. -/
def element (w : Manner m) (g : Grammar) (depth : Nat) (atStart : Bool) (t : Token)
    (s : TokenReader) : m (Reading s Pattern) := do
  match t.kind with
  | .stringLiteral => return .nothing s (.ofText t.string)
  | .literal => return .nothing s (.one t.char)
  | .charClass => return .nothing s (Parser.charClass g.dialect t.char)
  | .lParen => w.group g depth s
  | .lBracket =>
    let r ← w.lift (bracket { ignoreCase := g.ignoreCase } none s)
    return r.map fun set => .satisfying (.inSet set)
  | .repLower =>
    if g.dialect.isBasic ∧ atStart ∧ t.char = '*' then
      let b ← w.lift (bounds t.count s)
      return b.map fun _ => .one '*'
    else w.lift (fault s .nothingToRepeat)
  | .assertion => w.assertion g.dialect t.char atStart s
  | .backRef => w.lift (fault s (if t.count = 0 then .zeroBackRef else .unsupported))
  | .trailingEscape | .redundantEscape => w.lift (fault s .badEscape)
  | _ => w.lift (fault s .unsupported)
termination_by 4 * s.size + 4

/-- A group whose opening parenthesis has been read. -/
def group (w : Manner m) (g : Grammar) (depth : Nat) (s : TokenReader) :
    m (Reading s Pattern) := do
  if nestingLimit < depth + 1 then w.lift (fault s .nestedTooDeeply)
  else
    let start ← w.groupStart s
    have := start.le
    let r ← w.alternation g (depth + 1) start.rest
    match ← w.lift (take r.rest) with
    | none => w.lift (fault r.rest .unclosedGroup)
    | some (t, ⟨s', hs'⟩) =>
      if t.kind = .rParen then return start.next (r.next (.token hs' r.value))
      else w.lift (fault s' .unclosedGroup)
termination_by 4 * s.size + 3

end

/-- All tokens as one alternation. -/
def pattern (w : Manner m) (g : Grammar) (s : TokenReader) : m Pattern := do
  let r ← w.alternation g 0 s
  match ← w.lift (take r.rest) with
  | none => return r.value
  | some (_, ⟨s', _⟩) => w.lift (fault s' .unopenedGroup)

end Manner

/-- A token is given back whatever else may wait to be got again. -/
def plain : Manner (Except ParseError) where
  lift x := x
  upTo h x t := return .upTo h x t

def alternation (g : Grammar) (depth : Nat) (s : TokenReader) :
    Except ParseError (Reading s Pattern) := plain.alternation g depth s

def pattern (g : Grammar) (s : TokenReader) : Except ParseError Pattern := plain.pattern g s

theorem pattern_eq (g : Grammar) (s : TokenReader) :
    pattern g s = alternation g 0 s >>= fun r => take r.rest >>= fun
      | none => return r.value
      | some (_, ⟨s', _⟩) => fault s' .unopenedGroup := rfl

/-- The matcher of a pattern, compiled while the pattern is read. -/
def compile (flags : Flags) (text : String) (tag : Nat := 0) :
    Except PatternError (Matcher Char CharTest × Nat) :=
  match pattern (.ofFlags flags) (.ofPattern flags text) with
  | .ok p => .ok (p.matcher tag)
  | .error e => .error e.error

end Descent
end IncrementalRegex
