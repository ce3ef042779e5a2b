/-!
# `AsmVariants.Text.CodeRanges`: sets of characters given by ranges of code points

The character classes of this library come from the Unicode character database as ascending,
disjoint ranges of code points. `CodeRanges.covers` looks a character up; the ranges ascend,
so the search stops at the first range that begins behind the character.
-/

set_option autoImplicit false

namespace AsmVariants

/-- Ranges of code points, each with its first and its last member, in ascending order. -/
abbrev CodeRanges := List (Nat × Nat)

/-- Whether a code point lies in one of the ranges. -/
def CodeRanges.coversCode : CodeRanges → Nat → Bool
  | [], _ => false
  | (first, last) :: ranges, code =>
    if code < first then false
    else decide (code ≤ last) || CodeRanges.coversCode ranges code

/-- Whether a character lies in one of the ranges. -/
def CodeRanges.covers (ranges : CodeRanges) (c : Char) : Bool :=
  ranges.coversCode c.toNat

end AsmVariants
