import IncrementalRegex.Error
import IncrementalRegex.Unicode.Alphabetic
import IncrementalRegex.Unicode.Blank
import IncrementalRegex.Unicode.Cased
import IncrementalRegex.Unicode.Numeric

namespace IncrementalRegex

inductive CharClass where
  | alnum
  | alpha
  | blank
  | cntrl
  | digit
  | graph
  | lower
  | print
  | punct
  | space
  | upper
  | xdigit
  | word
deriving DecidableEq, Repr

namespace CharClass

def ofName? (name : List Char) : Except ErrorKind CharClass :=
  match String.ofList name with
  | "alnum" => .ok alnum
  | "alpha" => .ok alpha
  | "blank" => .ok blank
  | "cntrl" => .ok cntrl
  | "digit" | "d" => .ok digit
  | "graph" => .ok graph
  | "lower" => .ok lower
  | "print" => .ok print
  | "punct" => .ok punct
  | "space" | "s" => .ok space
  | "upper" => .ok upper
  | "xdigit" => .ok xdigit
  | "w" => .ok word
  | _ => .error .className

/-- The class of an escape letter, and whether the escape stands for all other characters, as an
upper case letter does. -/
def ofEscape? : Char → Option (CharClass × Bool)
  | 'd' => some (digit, false)
  | 'D' => some (digit, true)
  | 's' => some (space, false)
  | 'S' => some (space, true)
  | 'w' => some (word, false)
  | 'W' => some (word, true)
  | _ => none

def isControl (c : Char) : Bool := c.toNat < 0x20 || (0x7f ≤ c.toNat && c.toNat ≤ 0x9f)

def isAlphanumeric (c : Char) : Bool := Unicode.isAlphabetic c || Unicode.isNumeric c

def isAsciiPunctuation (c : Char) : Bool :=
  ('!' ≤ c && c ≤ '/') || (':' ≤ c && c ≤ '@') || ('[' ≤ c && c ≤ '\x60') ||
    ('\x7b' ≤ c && c ≤ '~')

/-- Digits, hexadecimal digits and punctuation are those of ASCII, and blanks are the space and the
tabulator; all other classes hold characters of every script. -/
def contains (class' : CharClass) (c : Char) : Bool :=
  match class' with
  | alnum => isAlphanumeric c
  | alpha => Unicode.isAlphabetic c
  | blank => c = ' ' || c = '\t'
  | cntrl => isControl c
  | digit => c.isDigit
  | graph => !isControl c && !Unicode.isWhitespace c
  | lower => Unicode.isLowercase c
  | print => !isControl c
  | punct => isAsciiPunctuation c
  | space => Unicode.isWhitespace c
  | upper => Unicode.isUppercase c
  | xdigit => c.isDigit || ('a' ≤ c && c ≤ 'f') || ('A' ≤ c && c ≤ 'F')
  | word => isAlphanumeric c || c = '_'

end CharClass

/-- The character that a collating element names, which has to be a single one. -/
def singleElement : List Char → Except ErrorKind Char
  | [c] => .ok c
  | _ => .error .collatingElement

end IncrementalRegex
