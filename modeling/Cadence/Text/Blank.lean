/-!
# Blank characters

The white space that is trimmed from names, identifiers and headers: the Unicode white space and
the four ASCII information separators.
-/

namespace Cadence.Text

/-- White space in the sense of Unicode, with the separators U+001C to U+001F. -/
def isBlank (c : Char) : Bool :=
  let n := c.toNat
  (9 ≤ n && n ≤ 13) || (28 ≤ n && n ≤ 32) || n == 0x85 || n == 0xA0 || n == 0x1680 ||
    (0x2000 ≤ n && n ≤ 0x200A) || n == 0x2028 || n == 0x2029 || n == 0x202F || n == 0x205F ||
    n == 0x3000

def stripChars (s : List Char) : List Char :=
  ((s.dropWhile isBlank).reverse.dropWhile isBlank).reverse

def strip (s : String) : String := String.ofList (stripChars s.toList)

def isBlankText (s : String) : Bool := s.toList.all isBlank

end Cadence.Text
