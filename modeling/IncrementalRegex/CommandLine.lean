import IncrementalRegex.Regex

namespace IncrementalRegex.CommandLine

structure Request where
  pattern : String
  dialect : Dialect := .ecmascript
  ignoreCase : Bool := false
  /-- Only lines that match as a whole count. -/
  wholeLine : Bool := false
  /-- The tokens of the pattern are listed first. -/
  dump : Bool := false
  /-- Where the lines are read, if not from the standard input. -/
  file : Option String := none
deriving DecidableEq, Repr

def Request.flags (r : Request) : Flags :=
  r.dialect.flag :: if r.ignoreCase then [.icase] else []

structure Outcome where
  code : Nat
  stdout : String
  stderr : String
deriving DecidableEq, Repr

/-- The lines of a text.  Each ends with a newline, and a carriage return before that is dropped as
well; what follows the last newline is a line if it is not empty. -/
def lines (text : List Char) : List (List Char) :=
  match text.splitOnP (· = '\n') with
  | [] => []
  | parts =>
    (parts.dropLast.map fun l => if l.getLast? = some '\r' then l.dropLast else l) ++
      parts.getLast?.toList.filter (!·.isEmpty)

def itemText : Except PatternError Token → String
  | .ok t => t.text
  | .error e => e.message

def unlines (ls : List String) : String := String.join (ls.map (· ++ "\n"))

/-- The list of the tokens, which is written also for a pattern that is at fault. -/
def tokenDump (r : Request) : String :=
  if r.dump then
    let tokens := (TokenStream.ofPattern r.flags r.pattern).items
    unlines (["DEBUG", "--------"] ++ tokens.map itemText ++ ["--------"])
  else ""

def selects (r : Request) (regex : Regex) (line : List Char) : Bool :=
  if r.wholeLine then regex.isMatch line else (regex.find line).isSome

/-- How a fault is reported. -/
def errorText (message : String) : String := "Error: " ++ Text.quoteString message.toList ++ "\n"

/-- The run on some input. -/
def run (r : Request) (input : String) : Outcome :=
  match Regex.ofPattern r.flags r.pattern with
  | .error e => ⟨1, tokenDump r, errorText e.message⟩
  | .ok regex =>
    let selected := (lines input.toList).filter (selects r regex)
    ⟨0, tokenDump r ++ unlines (selected.map String.ofList), ""⟩

def dialectOfName? : String → Option Dialect
  | "basic" => some .basic
  | "extended" => some .extended
  | "grep" => some .grep
  | "egrep" => some .egrep
  | "awk" => some .awk
  | "ecmascript" => some .ecmascript
  | _ => none

def withSyntax (r : Request) (name : String) : Option Request :=
  (dialectOfName? name).map fun dialect => { r with dialect }

def withShort (r : Request) : Char → Option Request
  | 'i' => some { r with ignoreCase := true }
  | 'x' => some { r with wholeLine := true }
  | 'd' => some { r with dump := true }
  | _ => none

/-- The request that positional arguments complete: a pattern, and perhaps a file. -/
def withPositional (r : Request) : List String → Option Request
  | [pattern] => some { r with pattern }
  | [pattern, file] => some { r with pattern, file := some file }
  | _ => none

/-- Reads arguments; `positional` holds those read before that are no options. -/
def readArguments (r : Request) (positional : List String) : List String → Option Request
  | [] => withPositional r positional
  | "--" :: rest => withPositional r (positional ++ rest)
  | "--syntax" :: name :: rest => do
    let r ← withSyntax r name
    readArguments r positional rest
  | "--ignore-case" :: rest => readArguments { r with ignoreCase := true } positional rest
  | "--line-regexp" :: rest => readArguments { r with wholeLine := true } positional rest
  | "--debug" :: rest => readArguments { r with dump := true } positional rest
  | a :: rest =>
    match a.splitOn "=", a.toList with
    | ["--syntax", name], _ => do
      let r ← withSyntax r name
      readArguments r positional rest
    | _, '-' :: c :: cs => do
      let r ← (c :: cs).foldlM withShort r
      readArguments r positional rest
    | _, _ => readArguments r (positional ++ [a]) rest

def request? (arguments : List String) : Option Request :=
  readArguments { pattern := "" } [] arguments

def usage : String := "Usage: re [--syntax SYNTAX] [-i] [-x] [-d] [--] PATTERN [FILE]\n"

end IncrementalRegex.CommandLine
