/-!
# Blank characters

`isBlank` is the Unicode property `White_Space`: twenty-five code points, far
from the four that `Char.isWhitespace` knows. `trim` takes the blank characters
off both ends of a text and leaves those inside.

Mirrors `trim`, and the test for a blank line in `parse_rows`.
-/

namespace JavaEntities.Text

/-- The inclusive ranges of code points with the property `White_Space`. -/
def blankRanges : List (Nat × Nat) :=
  [(0x09, 0x0D), (0x20, 0x20), (0x85, 0x85), (0xA0, 0xA0), (0x1680, 0x1680), (0x2000, 0x200A),
   (0x2028, 0x2029), (0x202F, 0x202F), (0x205F, 0x205F), (0x3000, 0x3000)]

/-- Whether a character is white space. -/
def isBlank (c : Char) : Bool :=
  blankRanges.any fun r => r.1 ≤ c.toNat && c.toNat ≤ r.2

/-- The text without the blank characters at its end. -/
def trimEnd (s : List Char) : List Char :=
  (s.reverse.dropWhile isBlank).reverse

/-- The text without the blank characters at either end. -/
def trim (s : List Char) : List Char :=
  trimEnd (s.dropWhile isBlank)

/-- Whether a text holds nothing but blank characters. -/
def allBlank (s : List Char) : Bool :=
  s.all isBlank

end JavaEntities.Text
