/-!
# Text/Blank — white space and trimming

`isBlank` is Unicode's `White_Space` property, twenty-five characters in all.  Trimming takes blank
characters off both ends and leaves those inside.
-/

namespace Switchboard.Text

/-- Is this a white space character? -/
def isBlank (c : Char) : Bool :=
  let n := c.toNat
  (0x9 ≤ n && n ≤ 0xd) || n == 0x20 || n == 0x85 || n == 0xa0 || n == 0x1680 ||
    (0x2000 ≤ n && n ≤ 0x200a) || n == 0x2028 || n == 0x2029 || n == 0x202f || n == 0x205f ||
    n == 0x3000

/-- The characters without the blank ones at either end. -/
def trim (cs : List Char) : List Char :=
  ((cs.dropWhile isBlank).reverse.dropWhile isBlank).reverse

end Switchboard.Text
