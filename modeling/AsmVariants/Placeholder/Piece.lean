import AsmVariants.Placeholder.Basic

/-!
# `AsmVariants.Placeholder.Piece`: a text cut into tokens

`pieces` reads a text from left to right. A percent sign and all the digits behind it are one
token, and every other character is a piece of its own; `flatten_pieces` says that the pieces
put together are the text. `tokens` keeps the placeholders alone.
-/

set_option autoImplicit false

namespace AsmVariants

/-- A piece of a text. -/
inductive Piece where
  /-- The token of a placeholder, with no digit behind it. -/
  | token (p : Placeholder)
  /-- A character that belongs to no token. -/
  | plain (c : Char)
  deriving DecidableEq

namespace Piece

/-- How the piece is written. -/
def toText : Piece → Text
  | token p => p.token
  | plain c => [c]

/-- The placeholder of a token. -/
def placeholder? : Piece → Option Placeholder
  | token p => some p
  | plain _ => none

end Piece

namespace Text

/-- Dropping characters from the front does not lengthen a text. -/
theorem length_dropWhile_le (test : Char → Bool) (t : Text) :
    (t.dropWhile test).length ≤ t.length :=
  (List.dropWhile_sublist test).length_le

/-- The pieces of a text. A token takes every digit that follows its percent sign. -/
def pieces : Text → List Piece
  | [] => []
  | c :: cs =>
    if c = '%' then
      match Placeholder.ofDigits? (cs.takeWhile Char.isDigit) with
      | some p => .token p :: pieces (cs.dropWhile Char.isDigit)
      | none => .plain c :: pieces cs
    else .plain c :: pieces cs
termination_by t => t.length
decreasing_by
  · exact Nat.lt_succ_of_le (length_dropWhile_le Char.isDigit cs)
  · exact Nat.lt_succ_self cs.length
  · exact Nat.lt_succ_self cs.length

/-- The placeholders whose tokens stand in the text, from left to right. -/
def tokens (t : Text) : List Placeholder := (pieces t).filterMap Piece.placeholder?

/-- Cutting a text into pieces loses nothing. -/
theorem flatten_pieces (t : Text) : (pieces t).flatMap Piece.toText = t := by
  fun_induction pieces t with
  | case1 => rfl
  | case2 cs p h ih =>
    rw [List.flatMap_cons, ih]
    show '%' :: (p.digits ++ cs.dropWhile Char.isDigit) = '%' :: cs
    rw [← Placeholder.ofDigits?_eq_some_iff.mp h, List.takeWhile_append_dropWhile]
  | case3 cs h ih => rw [List.flatMap_cons, ih]; rfl
  | case4 c cs h ih => rw [List.flatMap_cons, ih]; rfl

end Text

end AsmVariants
