/-!
Blank text in the sense of Unicode.
-/

namespace Formula

/-- Whether a character has the property White_Space: the controls from tab to
carriage return, the spaces, and the separators of lines and paragraphs. -/
def isWhiteSpace (char : Char) : Bool :=
  let code := char.toNat
  (0x9 ≤ code && code ≤ 0xd) || code = 0x20 || code = 0x85 || code = 0xa0 ||
    code = 0x1680 || (0x2000 ≤ code && code ≤ 0x200a) || code = 0x2028 ||
    code = 0x2029 || code = 0x202f || code = 0x205f || code = 0x3000

def trimWhiteSpace (text : List Char) : List Char :=
  ((text.dropWhile isWhiteSpace).reverse.dropWhile isWhiteSpace).reverse

def isBlankText (text : List Char) : Bool :=
  text.all isWhiteSpace

end Formula
