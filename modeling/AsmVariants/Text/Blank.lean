import AsmVariants.Text.CodeRanges

/-!
# `AsmVariants.Text.Blank`: white space

`isBlank` is the Unicode property `White_Space`: the 25 characters that are trimmed from a
list of values and that separate the columns of a timing report.
-/

set_option autoImplicit false

namespace AsmVariants.Text

/-- The characters with the property `White_Space`. -/
def blankRanges : CodeRanges :=
  [(0x9, 0xD), (0x20, 0x20), (0x85, 0x85), (0xA0, 0xA0),
  (0x1680, 0x1680), (0x2000, 0x200A), (0x2028, 0x2029), (0x202F, 0x202F),
  (0x205F, 0x205F), (0x3000, 0x3000)]

/-- Whether a character is white space. -/
def isBlank (c : Char) : Bool := blankRanges.covers c

end AsmVariants.Text
