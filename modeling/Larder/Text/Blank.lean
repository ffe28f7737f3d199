/-!
# Blank characters

The characters with the property White_Space, and trimming by it. A name made of blanks only is no
name; printed text drops the blanks at its end.
-/

namespace Larder.Text

/-- Whether a character is blank: the ASCII spaces, the next-line and no-break spaces, the Ogham
space mark, the typographic spaces, the line and paragraph separators and the ideographic space. -/
def isBlank (c : Char) : Bool :=
  let n := c.toNat
  (9 ≤ n && n ≤ 13) || n == 0x20 || n == 0x85 || n == 0xA0 || n == 0x1680
    || (0x2000 ≤ n && n ≤ 0x200A) || n == 0x2028 || n == 0x2029 || n == 0x202F || n == 0x205F
    || n == 0x3000

/-- Whether nothing is left of a text once its blanks are gone. -/
def isAllBlank (s : String) : Bool := s.toList.all isBlank

/-- The text without the blanks at its end. -/
def trimEnd (s : String) : String :=
  String.ofList (s.toList.reverse.dropWhile isBlank).reverse

/-- The text without the blanks at either end. -/
def trim (s : String) : String :=
  String.ofList ((s.toList.dropWhile isBlank).reverse.dropWhile isBlank).reverse

end Larder.Text
