import IncrementalRegex.Unicode.Run

namespace IncrementalRegex.Unicode

/-- Code points with the property White_Space, in increasing order. -/
def whitespaceRuns : List Run :=
  [⟨0x09, 0x0D, 1⟩, ⟨0x20, 0x20, 1⟩, ⟨0x85, 0x85, 1⟩, ⟨0xA0, 0xA0, 1⟩, ⟨0x1680, 0x1680, 1⟩,
   ⟨0x2000, 0x200A, 1⟩, ⟨0x2028, 0x2029, 1⟩, ⟨0x202F, 0x202F, 1⟩, ⟨0x205F, 0x205F, 1⟩,
   ⟨0x3000, 0x3000, 1⟩]

/-- A blank or line separator of any script, by the property White_Space. -/
def isWhitespace (c : Char) : Bool := inRuns whitespaceRuns c

end IncrementalRegex.Unicode
