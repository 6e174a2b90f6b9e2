import IncrementalRegex.Token.InBracket
import IncrementalRegex.Token.InExpression

namespace IncrementalRegex

/-- The part of the grammar that the next token is read in. -/
inductive Context where
  | expression
  | bracket
  /-- Directly after an opening parenthesis, for one token. -/
  | subexpression
deriving DecidableEq, Repr

namespace Context

/-- The context after a token of some kind. -/
def after (s : Context) : TokenKind → Context
  | .lParen => subexpression
  | .lBracket => bracket
  | .rBracket => expression
  | _ => if s = subexpression then expression else s

end Context

structure Nesting where
  /-- The number of groups that are open. -/
  depth : Nat := 0
deriving DecidableEq, Repr

namespace Nesting

/-- Whether a token of this kind would close a group that was never opened. -/
def closesNothing (n : Nesting) (kind : TokenKind) : Bool := kind == .rParen && n.depth == 0

def after (n : Nesting) : TokenKind → Nesting
  | .lParen => ⟨n.depth + 1⟩
  | .rParen => ⟨n.depth - 1⟩
  | _ => n

end Nesting

/-- The reader of all tokens of a pattern: it reads by the rules of the place it is at, and moves on
with each token. -/
structure TokenReader where
  cursor : Cursor
  context : Context := .expression
  nesting : Nesting := {}
  expression : ExpressionReader
  bracket : BracketReader := {}
  /-- Tokens that have been given back. -/
  returned : Queue Token := {}
  /-- The first fault, after which nothing more is read. -/
  error : Option PatternError := none
deriving DecidableEq, Repr

namespace TokenReader

def start (d : Dialect) (ignoreCase : Bool) (text : List Char) : TokenReader where
  cursor := .start text
  expression := { dialect := d, ignoreCase := ignoreCase }

def ofPattern (flags : Flags) (pattern : String) : TokenReader :=
  start (.ofFlags flags) (flags.contains .icase) pattern.toList

def dialect (s : TokenReader) : Dialect := s.expression.dialect

/-- The number of characters read. -/
def offset (s : TokenReader) : Nat := s.cursor.position

/-- Whether no token is left. -/
def isEmpty (s : TokenReader) : Bool :=
  s.returned.isEmpty &&
    match s.context with
    | .expression | .subexpression => s.expression.isEmpty s.cursor
    | .bracket => s.bracket.isEmpty s.cursor

/-- Gives a token back; it will be the next one. -/
def giveBack (s : TokenReader) (t : Token) : TokenReader := { s with returned := s.returned.push t }

/-- The next token as the reader of the context has it, and the reader moved by that reader alone.
-/
def readInContext (s : TokenReader) : Except PatternError (Option (Token × TokenReader)) := do
  match s.context with
  | .expression =>
    match ← s.expression.read s.cursor with
    | none => return none
    | some (t, expression, cursor) => return some (t, { s with expression, cursor })
  | .bracket =>
    match ← s.bracket.read s.dialect s.cursor with
    | none => return none
    | some (t, bracket, cursor) => return some (t, { s with bracket, cursor })
  | .subexpression =>
    match ← (Lexicon.group s.dialect).read s.cursor with
    | some (t, cursor) => return some (t, { s with cursor })
    | none =>
      match ← s.expression.read s.cursor with
      | none => return none
      | some (t, expression, cursor) => return some (t, { s with expression, cursor })

/-- The next token from the pattern itself, and the reader after it. -/
def read (s : TokenReader) : Except PatternError (Option (Token × TokenReader)) := do
  match ← s.readInContext with
  | none => return none
  | some (t, s) =>
    if s.nesting.closesNothing t.kind then s.cursor.fail .parenthesis
    else return some (t,
      { s with nesting := s.nesting.after t.kind, context := s.context.after t.kind })

/-- The reader once a fault has been found: it stands at the fault, and holds nothing back. -/
def failed (s : TokenReader) (e : PatternError) : TokenReader :=
  { s with
    cursor := s.cursor.seek e.offset
    expression := { s.expression with pending := {} }
    bracket := { s.bracket with ahead := {} }
    error := some e }

/-- The next token, one given back first.  A fault is reported again and again. -/
def get (s : TokenReader) : Except PatternError (Option Token) × TokenReader :=
  match s.error with
  | some e => (.error e, s)
  | none =>
    match s.returned.pop? with
    | some (t, returned) => (.ok (some t), { s with returned })
    | none =>
      match s.read with
      | .ok (some (t, s)) => (.ok (some t), s)
      | .ok none => (.ok none, s)
      | .error e => (.error e, s.failed e)

/-- The next token or fault in turn; after the first fault there is nothing more. -/
def next (s : TokenReader) : Option (Except PatternError Token) × TokenReader :=
  if s.error.isSome && s.returned.isEmpty then (none, s)
  else
    match s.get with
    | (.ok (some t), s) => (some (.ok t), s)
    | (.ok none, s) => (none, s)
    | (.error e, s) => (some (.error e), s)

end TokenReader
end IncrementalRegex
