import IncrementalRegex.Dialect
import IncrementalRegex.Token.Basic

namespace IncrementalRegex

/-- The first entry of a character decides, then its being an ASCII digit, then the kind of all
others. -/
structure KindTable where
  entries : List (Char × TokenKind) := []
  digit : Option TokenKind := none
  otherwise : Option TokenKind := none
deriving Repr

namespace KindTable

def kind? (t : KindTable) (c : Char) : Option TokenKind :=
  t.entries.lookup c <|> (if c.isDigit then t.digit else none) <|> t.otherwise

/-- An entry of one kind for each of some characters. -/
def each (chars : String) (kind : TokenKind) : List (Char × TokenKind) :=
  chars.toList.map (·, kind)

def basic : KindTable where
  entries := [('.', .charClass), ('[', .lBracket), ('\x7b', .lBrace), ('*', .replication),
    ('^', .assertion), ('$', .assertion), ('\\', .trailingEscape)]
  otherwise := some .literal

def basicEscaped : KindTable where
  entries := [('(', .lParen), (')', .rParen), ('\x7b', .lBrace)] ++ each "\x7d.[]*^$\\" .literal
  digit := some .simpleBackRef
  otherwise := some .redundantEscape

def extended : KindTable where
  entries := [('.', .charClass), ('[', .lBracket), ('(', .lParen), (')', .rParen),
    ('\x7b', .lBrace), ('*', .replication), ('+', .replication), ('?', .replication),
    ('|', .alternation), ('^', .assertion), ('$', .assertion), ('\\', .trailingEscape)]
  otherwise := some .literal

def extendedEscaped : KindTable where
  entries := each ".[]()\x7b\x7d*+?|^$\\" .literal
  otherwise := some .redundantEscape

def awkEscaped : KindTable where
  entries := each ".[]()\x7b\x7d*+?|^$\\\"/" .literal ++ each "abfnrtv" .controlChar
  otherwise := some .redundantEscape

def ecmascript : KindTable := extended

def ecmascriptEscaped : KindTable where
  entries := each "dDsSwW" .charClass ++ each "bB" .assertion ++ each "fnvrt0" .controlChar ++
    [('c', .control), ('x', .hexEscape), ('u', .unicodeEscape)]
  digit := some .compoundBackRef
  otherwise := some .literal

/-- What a character of an expression starts. -/
def ofDialect (d : Dialect) : KindTable :=
  let t := match d with
    | .basic | .grep => basic
    | .extended | .egrep | .awk => extended
    | .ecmascript => ecmascript
  if d.hasNewlineAlternation then { t with entries := t.entries ++ [('\n', .alternation)] } else t

/-- What a character after a backslash in an expression stands for. -/
def escapedOfDialect : Dialect → KindTable
  | .basic | .grep => basicEscaped
  | .extended | .egrep => extendedEscaped
  | .awk => awkEscaped
  | .ecmascript => ecmascriptEscaped

def inBracket : KindTable where
  entries := [(']', .rBracket), ('^', .negation), ('-', .rangeDash)]
  otherwise := some .bracketLiteral

/-- What a character after an opening bracket inside of brackets introduces. -/
def bracketOpener : KindTable where
  entries := [(':', .className), ('=', .equiv), ('.', .collate)]

/-- What a character after a backslash inside of brackets stands for. -/
def ecmascriptInBracketEscaped : KindTable where
  entries := each "dDsSwW" .charClass ++ each "bfnvrt0" .controlChar ++
    [('c', .control), ('x', .hexEscape), ('u', .unicodeEscape)]
  otherwise := some .bracketLiteral

/-- The closing brace may stand alone also where it is otherwise written with a backslash. -/
def inBrace : KindTable where
  entries := [(',', .comma), ('\x7d', .rBrace)]
  digit := some .count
  otherwise := some .badBrace

def inBraceEscaped (d : Dialect) : KindTable where
  entries := if d.isBasic then [('\x7d', .rBrace)] else []
  otherwise := some .badBrace

/-- What a character after a question mark that follows an opening parenthesis introduces. -/
def groupOpener : KindTable where
  entries := [('=', .positiveLookahead), ('!', .negativeLookahead), (':', .noSubexp)]

end KindTable
end IncrementalRegex
