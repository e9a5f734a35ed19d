import ParserAlgebra.Unicode.Table

/-!
# Blanks

The characters that may surround the text of a number. The information separators
(U+001C to U+001F) are not among them.
-/

namespace ParserAlgebra.Unicode

def blanks : RangeTable :=
  [(0x9, 0xD), (0x20, 0x20), (0x85, 0x85), (0xA0, 0xA0), (0x1680, 0x1680), (0x2000, 0x200A),
   (0x2028, 0x2029), (0x202F, 0x202F), (0x205F, 0x205F), (0x3000, 0x3000)]

/-- Whether a character may stand before or after the text of a number. -/
def isBlank (c : Char) : Bool :=
  blanks.holds c.toNat

end ParserAlgebra.Unicode
