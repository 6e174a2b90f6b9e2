import IncrementalRegex.Text.Quoted

namespace IncrementalRegex

/-- The kinds of tokens in expressions, directly after an opening parenthesis, in brackets and in
braces, in this order. -/
inductive TokenKind where
  | literal
  | stringLiteral
  /-- A dot or a class escape, told apart by the character. -/
  | charClass
  /-- An anchor or word boundary, told apart by the character. -/
  | assertion
  | backRef
  | simpleBackRef
  | compoundBackRef
  | alternation
  | lParen
  | rParen
  | lBracket
  | lBrace
  | replication
  | trailingEscape
  | redundantEscape
  | hexEscape
  | unicodeEscape
  | controlChar
  | control
  | positiveLookahead
  | negativeLookahead
  | noSubexp
  | rBracket
  | negation
  | rangeDash
  | bracketLiteral
  | collate
  | equiv
  | className
  | rBrace
  | comma
  | count
  | repLower
  | repUpper
  | badBrace
deriving DecidableEq, Repr

namespace TokenKind

def name : TokenKind → String
  | literal => "Literal"
  | stringLiteral => "StringLiteral"
  | charClass => "CharClass"
  | assertion => "Assertion"
  | backRef => "BackRef"
  | simpleBackRef => "SimpleBackRef"
  | compoundBackRef => "CompoundBackRef"
  | alternation => "Alternation"
  | lParen => "LParen"
  | rParen => "RParen"
  | lBracket => "LBracket"
  | lBrace => "LBrace"
  | replication => "Replication"
  | trailingEscape => "TrailingEscape"
  | redundantEscape => "RedundantEscape"
  | hexEscape => "HexEscape"
  | unicodeEscape => "UnicodeEscape"
  | controlChar => "ControlChar"
  | control => "Control"
  | positiveLookahead => "PositiveLookahead"
  | negativeLookahead => "NegativeLookahead"
  | noSubexp => "NoSubexp"
  | rBracket => "RBracket"
  | negation => "Negation"
  | rangeDash => "RangeDash"
  | bracketLiteral => "BracketLiteral"
  | collate => "Collate"
  | equiv => "Equiv"
  | className => "Class"
  | rBrace => "RBrace"
  | comma => "Comma"
  | count => "Count"
  | repLower => "RepLower"
  | repUpper => "RepUpper"
  | badBrace => "BadBrace"

end TokenKind

/-- A token of one kind.  Which of the other fields mean something depends on the kind, and those
that do not are left at their defaults. -/
structure Token where
  kind : TokenKind
  char : Char := '\x00'
  count : Nat := 0
  string : List Char := []
deriving DecidableEq, Repr

namespace Token

def ofChar (kind : TokenKind) (c : Char) : Token := ⟨kind, c, 0, []⟩

def ofCount (kind : TokenKind) (n : Nat) : Token := ⟨kind, '\x00', n, []⟩

def ofString (kind : TokenKind) (s : List Char) : Token := ⟨kind, '\x00', 0, s⟩

def hasKind (t : Token) (kind : TokenKind) : Bool := t.kind == kind

/-- The token with the fields that mean something for its kind. -/
def text (t : Token) : String :=
  let withFields (s : String) := t.kind.name ++ "(" ++ s ++ ")"
  match t.kind with
  | .stringLiteral | .className | .equiv | .collate => withFields (Text.quoteString t.string)
  | .backRef | .count | .repUpper => withFields (toString t.count)
  | .repLower => withFields (toString t.count ++ ", " ++ Text.quoteChar t.char)
  | _ => if t.char = '\x00' then t.kind.name else withFields (Text.quoteChar t.char)

end Token
end IncrementalRegex
