import IncrementalRegex.Unicode.CaseMap

namespace IncrementalRegex

/-- The upper case form, if that is a single character, and else the character itself. -/
def foldCase (c : Char) : Char :=
  match Unicode.toUpper c with
  | [u] => u
  | _ => c

/-- Folds only when asked to. -/
def foldIf (ignoreCase : Bool) (c : Char) : Char := if ignoreCase then foldCase c else c

theorem foldIf_true : foldIf true = foldCase := rfl

theorem foldIf_false : foldIf false = id := rfl

end IncrementalRegex
