import IncrementalRegex.Pattern.Basic
import IncrementalRegex.Token.Stream

namespace IncrementalRegex

/-- How deep groups, and repetitions stacked on an element, may be nested together. -/
def nestingLimit : Nat := 256

/-- What can be wrong with a sequence of tokens. -/
inductive Fault where
  | unopenedGroup
  | unclosedGroup
  | unclosedBracket
  | nestedTooDeeply
  | missingUpperBound
  | reversedBounds
  | nothingToRepeat
  | anchor
  | lookahead
  | zeroBackRef
  | badEscape
  | unsupported
  /-- A collating element that is no single character. -/
  | badElement
  | unknownClass
  | unknownClassEscape
  | dashWithoutStart
  | badRangeEnd
  | reversedRange
  | strayInBracket
deriving DecidableEq, Repr

def Fault.kind : Fault → ErrorKind
  | unopenedGroup | unclosedGroup => .parenthesis
  | unclosedBracket | strayInBracket => .bracket
  | nestedTooDeeply => .nesting
  | missingUpperBound | reversedBounds => .repetitionCount
  | nothingToRepeat => .nothingToRepeat
  | anchor | lookahead | unsupported => .unsupported
  | zeroBackRef => .backReference
  | badEscape | unknownClassEscape => .escapeSequence
  | badElement => .collatingElement
  | unknownClass => .className
  | dashWithoutStart | badRangeEnd | reversedRange => .range

/-- A group while it is read. -/
structure Group where
  /-- The branches before the last, the latest first. -/
  branches : List Pattern := []
  /-- The elements of the last branch, the latest first. -/
  branch : List Pattern := []
deriving Repr

namespace Group

def push (g : Group) (p : Pattern) : Group := { g with branch := p :: g.branch }

def closeBranch (g : Group) : Group := ⟨.join .concat g.branch.reverse :: g.branches, []⟩

def pattern (g : Group) : Pattern := .join .either g.closeBranch.branches.reverse

end Group

/-- What the next token is read as. -/
inductive Expecting where
  | element
  /-- The first token in a group, which may say what kind of group it is. -/
  | groupStart
  /-- The token after a dollar sign that is an anchor only at the end of a branch. -/
  | branchEnd
  /-- The upper bound of a repetition of the last element or, if there is none, of a leading star
  that is an ordinary character. -/
  | upperBound (lower : Nat)
  | bracketItem (set : CharSet) (rangeStart : Option Char)
  | rangeEnd (set : CharSet) (start : Char)
deriving Repr

/-- What of the flags still matters once there are tokens. -/
structure Grammar where
  dialect : Dialect
  ignoreCase : Bool
deriving Repr

structure Parser where
  /-- The innermost open group; the whole pattern counts as one. -/
  group : Group := {}
  /-- The groups around it, the innermost first. -/
  outer : List Group := []
  /-- The number of repetitions stacked on the last element. -/
  stacked : Nat := 0
  expecting : Expecting := .element
deriving Repr

namespace Parser

/-- Adds an element to the branch. -/
def push (s : Parser) (p : Pattern) : Parser :=
  { s with group := s.group.push p, stacked := 0, expecting := .element }

def expect (s : Parser) (e : Expecting) : Parser := { s with expecting := e }

def openGroup (s : Parser) : Except Fault Parser :=
  if nestingLimit < s.outer.length + 1 then .error .nestedTooDeeply
  else .ok { outer := s.group :: s.outer, expecting := .groupStart }

def closeGroup (s : Parser) : Except Fault Parser :=
  match s.outer with
  | [] => .error .unopenedGroup
  | g :: outer => .ok ({ s with group := g, outer }.push s.group.pattern)

/-- The class of an escape letter; a dot is any character, or any but a line end. -/
def charClass (d : Dialect) (letter : Char) : Pattern :=
  match CharClass.ofEscape? letter with
  | some (k, outside) => .satisfying (.inClass k outside)
  | none => if d = .ecmascript then .satisfying .notLineEnd else .any

/-- A repetition at the start of a branch has nothing to repeat, except that a star is an ordinary
character there in the basic dialects. -/
def repetition (d : Dialect) (s : Parser) (t : Token) : Except Fault Parser :=
  match s.group.branch with
  | [] =>
    if d.isBasic ∧ t.char = '*' then .ok (s.expect (.upperBound t.count))
    else .error .nothingToRepeat
  | _ :: _ =>
    if nestingLimit < s.outer.length + (s.stacked + 1) then .error .nestedTooDeeply
    else .ok (s.expect (.upperBound t.count))

/-- Anchors are refused.  In the basic dialects a caret is an anchor only at the start of a branch,
and a dollar sign only at its end; elsewhere both are ordinary characters. -/
def assertion (d : Dialect) (s : Parser) (anchor : Char) : Except Fault Parser :=
  if d.isBasic ∧ anchor = '^' ∧ s.group.branch ≠ [] then .ok (s.push (.one '^'))
  else if d.isBasic ∧ anchor = '$' then .ok (s.expect .branchEnd)
  else .error .anchor

def element (g : Grammar) (s : Parser) (t : Token) : Except Fault Parser :=
  match t.kind with
  | .stringLiteral => .ok (s.push (.ofText t.string))
  | .literal => .ok (s.push (.one t.char))
  | .charClass => .ok (s.push (charClass g.dialect t.char))
  | .lParen => s.openGroup
  | .rParen => s.closeGroup
  | .lBracket => .ok (s.expect (.bracketItem { ignoreCase := g.ignoreCase } none))
  | .alternation => .ok { s with group := s.group.closeBranch, expecting := .element }
  | .repLower => s.repetition g.dialect t
  | .assertion => s.assertion g.dialect t.char
  | .backRef => .error (if t.count = 0 then .zeroBackRef else .unsupported)
  | .trailingEscape | .redundantEscape => .error .badEscape
  | _ => .error .unsupported

def upperBound (s : Parser) (lower : Nat) (t : Token) : Except Fault Parser :=
  if t.kind = .repUpper then
    match Bounds.between? lower t.count with
    | none => .error .reversedBounds
    | some b =>
      match s.group.branch with
      | [] => .ok (s.push (.one '*'))
      | p :: ps =>
        .ok { s with
          group := { s.group with branch := .repeated p b :: ps }
          stacked := s.stacked + 1
          expecting := .element }
  else .error .missingUpperBound

def singleElement (span : List Char) : Except Fault Char :=
  (IncrementalRegex.singleElement span).mapError fun _ => .badElement

def bracketItem (s : Parser) (set : CharSet) (rangeStart : Option Char) (t : Token) :
    Except Fault Parser :=
  match t.kind with
  | .rBracket => .ok (s.push (.satisfying (.inSet set)))
  | .negation => .ok (s.expect (.bracketItem set.negate none))
  | .bracketLiteral => .ok (s.expect (.bracketItem (set.addChar t.char) (some t.char)))
  | .collate => do
    let c ← singleElement t.string
    return s.expect (.bracketItem (set.addChar c) (some c))
  | .equiv => do
    let c ← singleElement t.string
    return s.expect (.bracketItem (set.addChar c) none)
  | .className =>
    match CharClass.ofName? t.string with
    | .ok k => .ok (s.expect (.bracketItem (set.addClass k false) none))
    | .error _ => .error .unknownClass
  | .charClass =>
    match CharClass.ofEscape? t.char with
    | some (k, outside) => .ok (s.expect (.bracketItem (set.addClass k outside) none))
    | none => .error .unknownClassEscape
  | .rangeDash =>
    match rangeStart with
    | some start => .ok (s.expect (.rangeEnd set start))
    | none => .error .dashWithoutStart
  | _ => .error .strayInBracket

def rangeEnd (s : Parser) (set : CharSet) (start : Char) (t : Token) : Except Fault Parser := do
  let last ← match t.kind with
    | .bracketLiteral => pure t.char
    | .collate => singleElement t.string
    | _ => .error .badRangeEnd
  match set.addRange start last with
  | .ok set => return s.expect (.bracketItem set none)
  | .error _ => .error .reversedRange

/-- Takes one token. -/
def step (g : Grammar) (s : Parser) (t : Token) : Except Fault Parser :=
  match s.expecting with
  | .element => s.element g t
  | .groupStart =>
    match t.kind with
    | .noSubexp => .ok (s.expect .element)
    | .positiveLookahead | .negativeLookahead => .error .lookahead
    | _ => s.element g t
  | .branchEnd =>
    if t.kind = .alternation ∨ t.kind = .rParen then .error .anchor
    else (s.push (.one '$')).element g t
  | .upperBound lower => s.upperBound lower t
  | .bracketItem set rangeStart => s.bracketItem set rangeStart t
  | .rangeEnd set start => s.rangeEnd set start t

/-- The pattern, when there are no more tokens. -/
def finish (s : Parser) : Except Fault Pattern :=
  match s.expecting with
  | .element => if s.outer.isEmpty then .ok s.group.pattern else .error .unclosedGroup
  | .groupStart => .error .unclosedGroup
  | .branchEnd => .error .anchor
  | .upperBound _ => .error .missingUpperBound
  | .bracketItem .. | .rangeEnd .. => .error .unclosedBracket

end Parser

/-- Why there is no pattern. -/
inductive ParseError where
  /-- The tokens themselves end with a fault. -/
  | token (error : PatternError)
  /-- The tokens up to some offset make no sense. -/
  | grammar (fault : Fault) (offset : Nat)
deriving DecidableEq, Repr

def ParseError.error : ParseError → PatternError
  | token e => e
  | grammar f offset => ⟨f.kind, offset⟩

namespace TokenStream

/-- The pattern that the tokens spell.  The first fault counts, and the stream's own comes last. -/
def parse (g : Grammar) (s : TokenStream) : Except ParseError Pattern := do
  let last ← s.lexemes.foldlM
    (fun p (l : Lexeme) => (p.step g l.token).mapError (.grammar · l.offset)) ({} : Parser)
  match s.fault with
  | some e => .error (.token e)
  | none => last.finish.mapError (.grammar · s.offset)

end TokenStream

/-- The matcher of a pattern.  Its tests are tagged with the numbers from `tag` on; the first number
not used is returned. -/
def compile (flags : Flags) (pattern : String) (tag : Nat := 0) :
    Except PatternError (Matcher Char CharTest × Nat) :=
  let grammar : Grammar := ⟨.ofFlags flags, flags.contains .icase⟩
  match (TokenStream.ofPattern flags pattern).parse grammar with
  | .ok p => .ok (p.matcher tag)
  | .error e => .error e.error

end IncrementalRegex
