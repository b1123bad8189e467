/-!
The characters with the Unicode property White_Space, and texts without them at the ends.
-/

namespace FunctionAdapters.Text

/-- Whether a character has the Unicode property White_Space. -/
def isWhite (c : Char) : Bool :=
  let n := c.toNat
  (0x09 ≤ n && n ≤ 0x0D) || n == 0x20 || n == 0x85 || n == 0xA0 || n == 0x1680
    || (0x2000 ≤ n && n ≤ 0x200A) || n == 0x2028 || n == 0x2029 || n == 0x202F || n == 0x205F
    || n == 0x3000

/-- A text without white space at its ends. -/
def trimWhite (s : String) : String :=
  String.ofList ((s.toList.dropWhile isWhite).reverse.dropWhile isWhite).reverse

/-- A text with the capital letters of ASCII made small. -/
def lowerAscii (s : String) : String := s.map Char.toLower

end FunctionAdapters.Text
