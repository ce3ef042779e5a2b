import AsmVariants.Text.Blank
import AsmVariants.Text.WordChar

/-!
# `AsmVariants.Proofs.Text.CharClass`: classes of characters that have nothing in common

What a reader takes as one run ends where a character of another class stands, so it matters which
classes have a character in common. A decimal digit is a word character by definition. White space
and word characters exclude each other (`isWordChar_of_isBlank`): there is so little white space
that its characters can be looked up in the tables of word characters one by one. `codePoints` lists
them.
-/

set_option autoImplicit false

namespace AsmVariants.Proofs

open Text (isBlank isDecimalDigit isWordChar)

/-- The code points in the ranges, one by one. -/
def codePoints (ranges : CodeRanges) : List Nat :=
  ranges.flatMap fun range => List.range' range.1 (range.2 + 1 - range.1)

/-- A code in one of the ranges is in the list, so a fact about the whole class can be checked on
the list. -/
theorem mem_codePoints {ranges : CodeRanges} {code : Nat} (h : ranges.coversCode code) :
    code ∈ codePoints ranges := by
  induction ranges with
  | nil => exact nomatch h
  | cons range ranges ih =>
    obtain ⟨first, last⟩ := range
    rw [CodeRanges.coversCode] at h
    rw [codePoints, List.flatMap_cons, List.mem_append]
    -- The ranges ascend, so a code below this one is in no later one.
    split at h
    · exact nomatch h
    · next hfirst =>
      rw [Bool.or_eq_true, decide_eq_true_iff] at h
      rcases h with hlast | h
      · left
        rw [List.mem_range'_1]
        omega
      · exact .inr (ih h)

/-- White space is no word character. -/
theorem isWordChar_of_isBlank {c : Char} (h : isBlank c) : isWordChar c = false := by
  have hapart : ∀ code ∈ codePoints Text.blankRanges,
      (Text.letterRanges.coversCode code || Text.decimalDigitRanges.coversCode code ||
        Text.connectorRanges.coversCode code || Text.joinerRanges.coversCode code) = false := by
    decide +kernel
  exact hapart c.toNat (mem_codePoints h)

/-- A decimal digit of any script is a word character. -/
theorem isWordChar_of_isDecimalDigit {c : Char} (h : isDecimalDigit c) : isWordChar c := by
  rw [isWordChar, h, Bool.or_true, Bool.true_or, Bool.true_or]

/-- White space is no digit. -/
theorem isDecimalDigit_of_isBlank {c : Char} (h : isBlank c) : isDecimalDigit c = false := by
  cases hdigit : isDecimalDigit c with
  | false => rfl
  | true =>
    exact nomatch (isWordChar_of_isDecimalDigit hdigit).symm.trans (isWordChar_of_isBlank h)

end AsmVariants.Proofs
