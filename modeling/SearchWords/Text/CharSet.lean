/-! # Sets of characters given by code point ranges -/

namespace SearchWords.Text

/-- A set of characters, listed as inclusive ranges of code points. -/
structure CharSet where
  ranges : List (Nat × Nat)
deriving DecidableEq, Repr

def CharSet.contains (s : CharSet) (c : Char) : Bool :=
  s.ranges.any fun r => r.1 ≤ c.toNat && c.toNat ≤ r.2

/-! ## White space -/

/-- The characters with the Unicode property `White_Space`. -/
def whiteSpace : CharSet where
  ranges := [(0x09, 0x0D), (0x20, 0x20), (0x85, 0x85), (0xA0, 0xA0), (0x1680, 0x1680),
    (0x2000, 0x200A), (0x2028, 0x2029), (0x202F, 0x202F), (0x205F, 0x205F), (0x3000, 0x3000)]

def isWhiteSpace (c : Char) : Bool :=
  whiteSpace.contains c

/-- A blank text has no character outside white space. -/
def isBlank (s : String) : Bool :=
  s.toList.all isWhiteSpace

end SearchWords.Text
