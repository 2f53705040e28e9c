import PseudocodeLexer.Text.CodeRanges

/-!
# Blanks

The Unicode property White_Space. Zero-width characters, the byte order mark and the separators
U+001C to U+001F are no blanks.
-/

namespace PseudocodeLexer.Text

/-- Code points with the property White_Space. -/
def blankRanges : CodeRanges :=
  [(0x9, 0xD), (0x20, 0x20), (0x85, 0x85), (0xA0, 0xA0), (0x1680, 0x1680), (0x2000, 0x200A),
   (0x2028, 0x2029), (0x202F, 0x202F), (0x205F, 0x205F), (0x3000, 0x3000)]

/-- Whether a character has the property White_Space. -/
def isBlank (c : Char) : Bool :=
  blankRanges.covers c

end PseudocodeLexer.Text
