import IncrementalRegex.Matcher.Step
import IncrementalRegex.Pattern.Parse

namespace IncrementalRegex

/-- A compiled pattern that texts are searched with. -/
structure Regex where
  pattern : String
  flags : Flags
  matcher : Matcher Char CharTest

namespace Regex

def ofPattern (flags : Flags) (pattern : String) : Except PatternError Regex :=
  (compile flags pattern).map fun m => ⟨pattern, flags, m.1⟩

/-- A character as the matcher is to see it. -/
def seen (r : Regex) (c : Char) : Char := foldIf (r.flags.contains .icase) c

/-- The length of the longest match, when `m` has read `n` characters, the longest match among them
was `longest`, and the given characters are left. -/
def longestFrom (r : Regex) (m : Matcher Char CharTest) (n : Nat) (longest : Option Nat) :
    List Char → Option Nat
  | [] => longest
  | c :: cs =>
    if m.state.isTerminal then longest
    else
      let m := m.read (r.seen c)
      r.longestFrom m (n + 1) (if m.state.isMatch then some (n + 1) else longest) cs

/-- The number of characters in the longest prefix of a text that matches. -/
def matchLength (r : Regex) (text : List Char) : Option Nat :=
  let m := r.matcher.start
  r.longestFrom m 0 (if m.state.isMatch then some 0 else none) text

/-- Whether a text matches as a whole. -/
def isMatch (r : Regex) (text : List Char) : Bool := r.matcher.accepts (text.map r.seen)

def byteLength (text : List Char) : Nat := text.foldr (fun c n => c.utf8Size + n) 0

/-- The byte range of the leftmost match, and of those the longest, in a text that starts at byte
`start`. -/
def findFrom (r : Regex) (start : Nat) (text : List Char) : Option (Nat × Nat) :=
  match r.matchLength text with
  | some n => some (start, start + byteLength (text.take n))
  | none =>
    match text with
    | [] => none
    | c :: cs => r.findFrom (start + c.utf8Size) cs
termination_by structural text

def find (r : Regex) (text : List Char) : Option (Nat × Nat) := r.findFrom 0 text

end Regex
end IncrementalRegex
