import AsmVariants.Text.Basic

/-!
# `AsmVariants.Decimal.Natural`: reading natural numbers

`Text.toNat?` reads a run of the digits `0` to `9`; leading zeros are allowed. `Text.toUInt64?`
reads those numbers that fit into 64 bits. Both read every number that they should:
`toNat?_ofNat` and `toUInt64?_ofNat` say that a number is read back from its digits.
-/

set_option autoImplicit false

namespace AsmVariants.Text

/-- The number that a run of digits denotes. -/
def toNat? (t : Text) : Option Nat :=
  if t ≠ [] ∧ t.all Char.isDigit then some (Nat.ofDigitChars 10 t 0) else none

/-- The number that a run of digits denotes, if it has at most 64 bits. -/
def toUInt64? (t : Text) : Option UInt64 :=
  (toNat? t).bind fun n => if n < UInt64.size then some (UInt64.ofNat n) else none

/-- A number is written in digits only. -/
theorem isDigit_of_mem_ofNat {n : Nat} {c : Char} (h : c ∈ ofNat n) : c.isDigit :=
  Nat.isDigit_of_mem_toDigits (by decide) (by decide) h

/-- A number is read back from its digits. -/
@[simp] theorem toNat?_ofNat (n : Nat) : toNat? (ofNat n) = some n := by
  have digits : ∀ c ∈ ofNat n, c.isDigit := fun c hc => isDigit_of_mem_ofNat hc
  have nonempty : ofNat n ≠ [] := Nat.toDigits_ne_nil
  rw [toNat?, if_pos ⟨nonempty, List.all_eq_true.mpr digits⟩, ofNat,
    Nat.ofDigitChars_ten_toDigits]

/-- A 64-bit number is read back from its digits. -/
@[simp] theorem toUInt64?_ofNat (n : UInt64) : toUInt64? (ofNat n.toNat) = some n := by
  rw [toUInt64?, toNat?_ofNat, Option.bind_some, if_pos n.toNat_lt, UInt64.ofNat_toNat]

end AsmVariants.Text
