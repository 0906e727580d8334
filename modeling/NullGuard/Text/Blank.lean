/-!
# Blank characters

White space in the sense of the Unicode property. It is a closed set of code
points, so membership is a comparison of numbers.
-/

namespace NullGuard.Text

/-- The code points that carry the Unicode property `White_Space`. -/
def isBlank (c : Char) : Bool :=
  let point := c.toNat
  (9 ≤ point && point ≤ 13) || point == 0x20 || point == 0x85 || point == 0xA0 ||
    point == 0x1680 || (0x2000 ≤ point && point ≤ 0x200A) || point == 0x2028 ||
    point == 0x2029 || point == 0x202F || point == 0x205F || point == 0x3000

end NullGuard.Text
