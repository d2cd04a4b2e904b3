/-
  White space in the sense of the Unicode property
  `White_Space`, and the removal of it from both ends of a
  text.

  Key definitions include:
    * `Text.isBlank`
    * `Text.trimBlanks`
-/

------------------------------------------------------------
-- White Space
------------------------------------------------------------

namespace BeltHeap

namespace Text

/- The characters with the Unicode property `White_Space`. -/
def isBlank (c : Char) : Bool :=
  let n := c.toNat
  (9 ≤ n && n ≤ 13) || n == 0x20 || n == 0x85 || n == 0xa0 ||
    n == 0x1680 || (0x2000 ≤ n && n ≤ 0x200a) ||
    n == 0x2028 || n == 0x2029 || n == 0x202f ||
    n == 0x205f || n == 0x3000

/- A list of characters without the blanks at its two ends. -/
def trimBlanks (cs : List Char) : List Char :=
  ((cs.dropWhile isBlank).reverse.dropWhile isBlank).reverse

end Text

end BeltHeap
