import IncrementalRegex.Unicode.Printable

namespace IncrementalRegex.Text

/-- Lower case hexadecimal digits without leading zeros. -/
def hex (n : Nat) : List Char := Nat.toDigits 16 n

/-- `c` as it stands between two of `quote`. -/
def escaped (quote c : Char) : List Char :=
  if c = '\x00' then ['\\', '0']
  else if c = '\t' then ['\\', 't']
  else if c = '\r' then ['\\', 'r']
  else if c = '\n' then ['\\', 'n']
  else if c = '\\' || c = quote then ['\\', c]
  else if Unicode.isExtendingMark c || !Unicode.isPrintable c then
    ['\\', 'u', '\x7b'] ++ hex c.toNat ++ ['\x7d']
  else [c]

def quoteChar (c : Char) : String := String.ofList ('\'' :: escaped '\'' c ++ ['\''])

def quoteString (s : List Char) : String :=
  String.ofList ('"' :: s.flatMap (escaped '"') ++ ['"'])

end IncrementalRegex.Text
