namespace IncrementalRegex

inductive Flag where
  /-- Match without regard to case. -/
  | icase
  | nosubs
  | optimize
  | collate
  | ecmascript
  | basic
  | extended
  | awk
  | grep
  | egrep
  | multiline
deriving DecidableEq, Repr

def Flag.bit : Flag → Nat
  | icase => 0x001
  | nosubs => 0x002
  | optimize => 0x004
  | collate => 0x008
  | ecmascript => 0x010
  | basic => 0x020
  | extended => 0x040
  | awk => 0x080
  | grep => 0x100
  | egrep => 0x200
  | multiline => 0x400

/-- A set of flags.  Order and repetition do not matter. -/
abbrev Flags := List Flag

def Flags.mask (flags : Flags) : Nat := flags.foldl (fun m f => m ||| f.bit) 0

inductive Dialect where
  | basic
  | extended
  /-- Basic, with newlines between alternatives. -/
  | grep
  /-- Extended, with newlines between alternatives. -/
  | egrep
  /-- Extended, with escapes for control characters. -/
  | awk
  | ecmascript
deriving DecidableEq, Repr

namespace Dialect

/-- The dialect of the first grammar flag present, in the order written here. -/
def ofFlags (flags : Flags) : Dialect :=
  if .ecmascript ∈ flags then ecmascript
  else if .grep ∈ flags then grep
  else if .egrep ∈ flags then egrep
  else if .basic ∈ flags then basic
  else if .extended ∈ flags then extended
  else if .awk ∈ flags then awk
  else ecmascript

def flag : Dialect → Flag
  | basic => .basic
  | extended => .extended
  | grep => .grep
  | egrep => .egrep
  | awk => .awk
  | ecmascript => .ecmascript

theorem ofFlags_flag (d : Dialect) : ofFlags [d.flag] = d := by
  cases d <;> rfl

/-- Groups and counted repetitions are written with escapes. -/
def isBasic : Dialect → Bool
  | basic | grep => true
  | _ => false

def hasNewlineAlternation : Dialect → Bool
  | grep | egrep => true
  | _ => false

def name : Dialect → String
  | basic => "basic"
  | extended => "extended"
  | grep => "grep"
  | egrep => "egrep"
  | awk => "awk"
  | ecmascript => "ECMAScript"

end Dialect
end IncrementalRegex
