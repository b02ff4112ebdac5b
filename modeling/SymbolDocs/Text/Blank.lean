import SymbolDocs.Text.Ranges
set_option autoImplicit false

/-!
# Blank characters

The Unicode property White_Space.

## Main definitions

* `Text.isBlank` — whether a character is white space.
-/

namespace SymbolDocs

namespace Text

/-- The code points with the property White_Space. -/
def blankRanges : CodeRanges :=
  [(0x9, 0xD), (0x20, 0x20), (0x85, 0x85), (0xA0, 0xA0), (0x1680, 0x1680), (0x2000, 0x200A),
   (0x2028, 0x2029), (0x202F, 0x202F), (0x205F, 0x205F), (0x3000, 0x3000)]

/-- Whether a character is white space. -/
def isBlank (c : Char) : Bool :=
  blankRanges.has c

end Text

end SymbolDocs
