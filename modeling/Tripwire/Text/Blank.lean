/-!
# Blank characters

The twenty-five characters that separate words without being part of one: the
White_Space property, kept as the inclusive ranges of its code points.
-/

namespace Tripwire.Text

/-- The inclusive ranges of code points with the White_Space property. -/
def blankRanges : List (Nat × Nat) :=
  [(0x09, 0x0D), (0x20, 0x20), (0x85, 0x85), (0xA0, 0xA0), (0x1680, 0x1680),
   (0x2000, 0x200A), (0x2028, 0x2029), (0x202F, 0x202F), (0x205F, 0x205F), (0x3000, 0x3000)]

/-- Whether a character lies in one of the blank ranges. -/
def isBlank (letter : Char) : Bool :=
  blankRanges.any fun (first, last) => first ≤ letter.toNat && letter.toNat ≤ last

end Tripwire.Text
