/-
  Hotspot/Text/Blank.lean
  =======================
  **Blank text: white space in the sense of the Unicode property `White_Space`.**

  A reference made of white space alone names nothing.  The table is the whole property
  (25 characters), which core's ASCII class does not cover.
-/

namespace Hotspot.Text

def whiteSpaceRanges : List (Nat × Nat) :=
  [(0x09, 0x0D), (0x20, 0x20), (0x85, 0x85), (0xA0, 0xA0), (0x1680, 0x1680), (0x2000, 0x200A),
   (0x2028, 0x2029), (0x202F, 0x202F), (0x205F, 0x205F), (0x3000, 0x3000)]

def isWhiteSpace (c : Char) : Bool :=
  whiteSpaceRanges.any fun r => r.1 ≤ c.toNat && c.toNat ≤ r.2

def isBlank (s : String) : Bool := s.toList.all isWhiteSpace

end Hotspot.Text
