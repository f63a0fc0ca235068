/-!
# Blank characters

The characters that count as blank space at the ends of a text, and removing them.
-/

namespace Steward.Blank

/-- Blank characters of all scripts: the controls that move the print position, the four separators
of records, and the spaces. -/
def isBlank (c : Char) : Bool :=
  let code := c.toNat
  (9 ≤ code && code ≤ 13) || (28 ≤ code && code ≤ 32) || code == 0x85 || code == 0xa0 ||
    code == 0x1680 || (0x2000 ≤ code && code ≤ 0x200a) || code == 0x2028 || code == 0x2029 ||
    code == 0x202f || code == 0x205f || code == 0x3000

/-- Remove the characters of a class from the end of a text. -/
def trimEnd (isRemoved : Char → Bool) (text : List Char) : List Char :=
  (text.reverse.dropWhile isRemoved).reverse

/-- Remove blank characters from both ends of a text. -/
def trim (text : List Char) : List Char := trimEnd isBlank (text.dropWhile isBlank)

end Steward.Blank
