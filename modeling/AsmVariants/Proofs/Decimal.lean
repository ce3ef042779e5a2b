import AsmVariants.Decimal.Natural
import AsmVariants.Proofs.Text.Run
import Mathlib.Data.List.Induction

/-!
# `AsmVariants.Proofs.Decimal`: natural numbers and their digits

`toUInt64?_eq_some_iff` says which texts are read as a number. Leading zeros make no difference to
the number, so a number has many spellings, but it is written in one way only: the digits without a
leading zero (`ofNat_ofDigitChars`, `head?_ofNat_ne`). Limits are read so, on a command line and in
a configuration, and the number in the name of an output is written so.
-/

set_option autoImplicit false

namespace AsmVariants.Proofs

/-- A number is read from its digits, with leading zeros or without. -/
theorem toUInt64?_eq_some_iff {t : Text} {n : UInt64} :
    t.toUInt64? = some n ↔
      t ≠ [] ∧ (∀ c ∈ t, c.isDigit) ∧ Nat.ofDigitChars 10 t 0 = n.toNat := by
  simp only [Text.toUInt64?, Text.toNat?, List.all_eq_true]
  split
  · next hdigits =>
    rw [Option.bind_some, Option.ite_none_right_eq_some]
    constructor
    · rintro ⟨hlt, hn⟩
      rw [← Option.some.inj hn, UInt64.toNat_ofNat_of_lt' hlt]
      exact ⟨hdigits.1, hdigits.2, rfl⟩
    · rintro ⟨-, -, hn⟩
      rw [hn, UInt64.ofNat_toNat]
      exact ⟨n.toNat_lt, rfl⟩
  · next hdigits =>
    constructor
    · intro h
      cases h
    · intro h
      exact absurd ⟨h.1, h.2.1⟩ hdigits

/-- A digit is that of a number below ten. -/
theorem exists_digitChar {c : Char} (h : c.isDigit) : ∃ d < 10, c = Nat.digitChar d := by
  obtain ⟨hlow, hhigh⟩ := Char.isDigit_iff_toNat.mp h
  have hzero : '0'.toNat = 48 := rfl
  have hnine : '9'.toNat = 57 := rfl
  have hd : c.toNat - 48 < 10 := by omega
  refine ⟨c.toNat - 48, hd, Char.toNat_inj.mp ?_⟩
  rw [Nat.toNat_digitChar_of_lt_ten hd]
  omega

/-- Digits without a leading zero are the digits of the number that they denote. -/
theorem ofNat_ofDigitChars {digits : Text} (h : IsRun Char.isDigit digits)
    (hzero : digits.head? ≠ some '0') :
    Text.ofNat (Nat.ofDigitChars 10 digits 0) = digits := by
  induction digits using List.reverseRecOn with
  | nil => exact absurd rfl h.ne_nil
  | append_singleton digits c ih =>
    obtain ⟨d, hd, rfl⟩ := exists_digitChar (h.all c (by simp))
    have hlast : Nat.toDigits 10 d = [Nat.digitChar d] := Nat.toDigits_of_lt_base hd
    rw [Nat.ofDigitChars_append, Nat.ofDigitChars_cons_digitChar_of_lt_ten hd, Nat.ofDigitChars_nil,
      Text.ofNat]
    -- A single digit is itself. Otherwise the digits in front denote a number above zero, and the
    -- last one is put behind the digits of that number.
    by_cases hdigits : digits = []
    · rw [hdigits, Nat.ofDigitChars_nil, Nat.mul_zero, Nat.zero_add, hlast]
      rfl
    · have hall : IsRun Char.isDigit digits :=
        ⟨hdigits, fun c hc => h.all c (List.mem_append_left _ hc)⟩
      have hhead : digits.head? ≠ some '0' := by
        rwa [List.head?_append_of_ne_nil digits hdigits] at hzero
      have hfront := ih hall hhead
      have hpos : 0 < Nat.ofDigitChars 10 digits 0 := by
        rw [Nat.pos_iff_ne_zero]
        intro hnone
        rw [hnone] at hfront
        exact hhead (hfront ▸ rfl)
      rw [← Nat.toDigits_append_toDigits (by decide) hpos hd, hlast, ← Text.ofNat, hfront]

/-- Only zero begins with a zero. -/
theorem head?_ofNat_ne {n : Nat} (h : 0 < n) : (Text.ofNat n).head? ≠ some '0' := by
  induction n using Nat.strongRecOn with
  | ind n ih =>
    by_cases hlt : n < 10
    · have hzero : '0'.toNat = 48 := rfl
      rw [Text.ofNat, Nat.toDigits_of_lt_base hlt]
      intro hhead
      have hcode := congrArg Char.toNat (Option.some.inj hhead)
      rw [Nat.toNat_digitChar_of_lt_ten hlt] at hcode
      omega
    · -- The first digit is that of a tenth of the number.
      rw [Text.ofNat, Nat.toDigits_of_base_le (by decide) (by omega),
        List.head?_append_of_ne_nil _ Nat.toDigits_ne_nil]
      exact ih (n / 10) (by omega) (by omega)

end AsmVariants.Proofs
