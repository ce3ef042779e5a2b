import AsmVariants.Json.Token
import AsmVariants.Proofs.Decimal

/-!
# `AsmVariants.Proofs.Json.Number`: how a number is written

`IsNumeral` is the grammar of the numbers in a JSON text: maybe a minus, an integer part without
leading zeros, maybe a fraction, and maybe an exponent. `Json.isNumber` takes a text apart from left
to right, and `isNumber_iff` says that it accepts exactly the numbers of the grammar. As in
`AsmVariants.Proofs.Benchmark.Measurement`, each part has one lemma for what is written and one for
what was read.

An integer part is how a natural number is written, and every natural number is written so
(`IsInteger.ofNat_eq`, `isInteger_ofNat`).
-/

set_option autoImplicit false

namespace AsmVariants.Proofs

open Json (afterDigits? afterExponent? afterFraction? afterInteger? dropSign isNumber)

/-! ### What a number looks like -/

/-- The integer part of a number. A zero stands alone. -/
inductive IsInteger : Text → Prop
  | zero : IsInteger ['0']
  | digits {t : Text} (isRun : IsRun Char.isDigit t) (no_zero : t.head? ≠ some '0') : IsInteger t

/-- The fraction of a number, if there is one. -/
inductive IsFraction : Text → Prop
  | none : IsFraction []
  | digits {t : Text} (isRun : IsRun Char.isDigit t) : IsFraction ('.' :: t)

/-- The exponent of a number, if there is one. -/
inductive IsExponent : Text → Prop
  | none : IsExponent []
  | digits {e : Char} {sign t : Text} (letter : e = 'e' ∨ e = 'E')
      (isSign : sign = [] ∨ sign = ['+'] ∨ sign = ['-']) (isRun : IsRun Char.isDigit t) :
      IsExponent (e :: (sign ++ t))

/-- A number. -/
inductive IsNumeral : Text → Prop
  | intro {sign whole fraction exponent : Text} (isSign : sign = [] ∨ sign = ['-'])
      (isInteger : IsInteger whole) (isFraction : IsFraction fraction)
      (isExponent : IsExponent exponent) : IsNumeral (sign ++ (whole ++ (fraction ++ exponent)))

/-! ### Numbers are read as they are written

The reader takes the integer part, the fraction and the exponent one after another and hands on what
is left. Where a part is missing it hands on the whole text, which is why the next part must not
begin as the missing one would. -/

section

variable {digits t rest : Text}

/-- Digits are passed to their end, if what follows does not go on with them. -/
theorem afterDigits?_append (h : IsRun Char.isDigit digits) (hrest : Stops Char.isDigit rest) :
    afterDigits? (digits ++ rest) = some rest := by
  rw [afterDigits?, span_append h.all hrest]
  cases digits with
  | nil => exact absurd rfl h.ne_nil
  | cons c digits => rfl

/-- What is passed as digits is a run of them. -/
theorem exists_of_afterDigits? (h : afterDigits? t = some rest) :
    ∃ digits, t = digits ++ rest ∧ IsRun Char.isDigit digits := by
  rw [afterDigits?, List.span_eq_takeWhile_dropWhile] at h
  have hall : ∀ c ∈ t.takeWhile Char.isDigit, c.isDigit := fun c => List.mem_takeWhile_imp
  have hjoin : t.takeWhile Char.isDigit ++ t.dropWhile Char.isDigit = t :=
    List.takeWhile_append_dropWhile
  cases htake : t.takeWhile Char.isDigit with
  | nil => rw [htake] at h; exact nomatch h
  | cons c taken =>
    rw [htake] at h hall hjoin
    obtain rfl := Option.some.inj h
    exact ⟨_, hjoin.symm, List.cons_ne_nil c taken, hall⟩

/-- An integer part is passed as a whole, if no digit follows. A zero is passed by itself, and any
other first digit introduces a run. -/
theorem afterInteger?_append {whole : Text} (h : IsInteger whole)
    (hrest : Stops Char.isDigit rest) : afterInteger? (whole ++ rest) = some rest := by
  cases h with
  | zero => rfl
  | digits isRun no_zero =>
    rw [← afterDigits?_append isRun hrest]
    cases whole with
    | nil => exact absurd rfl isRun.ne_nil
    | cons c whole =>
      -- Only a zero would stand alone.
      unfold afterInteger?
      split
      · next heq => exact absurd (congrArg some (List.cons.inj heq).1) no_zero
      · rfl

/-- What is passed as an integer part is one. A run of digits is passed only where the first is no
zero. -/
theorem exists_of_afterInteger? (h : afterInteger? t = some rest) :
    ∃ whole, t = whole ++ rest ∧ IsInteger whole := by
  unfold afterInteger? at h
  split at h
  · obtain rfl := Option.some.inj h
    exact ⟨['0'], rfl, .zero⟩
  · next hzero =>
    obtain ⟨digits, rfl, isRun⟩ := exists_of_afterDigits? h
    refine ⟨digits, rfl, .digits isRun fun hhead => ?_⟩
    obtain ⟨tail, rfl⟩ := List.head?_eq_some_iff.mp hhead
    exact hzero (tail ++ rest) rfl

/-- A fraction is passed as a whole, if neither a digit nor a point follows. Without the latter, a
point behind a number that has no fraction would be taken for the start of one. -/
theorem afterFraction?_append {fraction : Text} (h : IsFraction fraction)
    (hrest : Stops Char.isDigit rest) (hpoint : rest.head? ≠ some '.') :
    afterFraction? (fraction ++ rest) = some rest := by
  cases h with
  | none =>
    rw [List.nil_append]
    unfold afterFraction?
    split
    · exact absurd rfl hpoint
    · rfl
  | digits isRun => exact afterDigits?_append isRun hrest

/-- What is passed as a fraction is one, and a point without digits behind it is none. -/
theorem exists_of_afterFraction? (h : afterFraction? t = some rest) :
    ∃ fraction, t = fraction ++ rest ∧ IsFraction fraction := by
  unfold afterFraction? at h
  split at h
  · obtain ⟨digits, rfl, isRun⟩ := exists_of_afterDigits? h
    exact ⟨_, rfl, .digits isRun⟩
  · obtain rfl := Option.some.inj h
    exact ⟨[], rfl, .none⟩

/-- What is dropped in front of an exponent is a sign or nothing. -/
theorem exists_sign_append_dropSign (t : Text) :
    ∃ sign, t = sign ++ dropSign t ∧ (sign = [] ∨ sign = ['+'] ∨ sign = ['-']) := by
  unfold dropSign
  split
  · exact ⟨['+'], rfl, .inr (.inl rfl)⟩
  · exact ⟨['-'], rfl, .inr (.inr rfl)⟩
  · exact ⟨[], rfl, .inl rfl⟩

/-- A sign in front of digits is dropped, and digits without one stay as they are. -/
theorem dropSign_append {sign : Text} (h : sign = [] ∨ sign = ['+'] ∨ sign = ['-'])
    (isRun : IsRun Char.isDigit digits) : dropSign (sign ++ digits) = digits := by
  rcases h with rfl | rfl | rfl
  · rw [List.nil_append]
    unfold dropSign
    split
    · exact absurd (isRun.all '+' List.mem_cons_self) (by decide)
    · exact absurd (isRun.all '-' List.mem_cons_self) (by decide)
    · rfl
  · rfl
  · rfl

/-- An exponent at the end of a text is passed, and nothing is left. -/
theorem afterExponent?_eq {exponent : Text} (h : IsExponent exponent) :
    afterExponent? exponent = some [] := by
  cases h with
  | none => rfl
  | @digits e sign t letter isSign isRun =>
    have hread : afterDigits? (dropSign (sign ++ t)) = some [] := by
      rw [dropSign_append isSign isRun, ← List.append_nil t]
      exact afterDigits?_append isRun nofun
    rcases letter with rfl | rfl
    · exact hread
    · exact hread

/-- Where nothing is left behind an exponent, the text is one. Both letters are read in the same
way. -/
theorem isExponent_of_afterExponent? (h : afterExponent? t = some []) : IsExponent t := by
  have hexponent {e : Char} {rest : Text} (letter : e = 'e' ∨ e = 'E')
      (h : afterDigits? (dropSign rest) = some []) : IsExponent (e :: rest) := by
    obtain ⟨sign, hrest, isSign⟩ := exists_sign_append_dropSign rest
    obtain ⟨digits, hdigits, isRun⟩ := exists_of_afterDigits? h
    rw [hdigits, List.append_nil] at hrest
    exact hrest ▸ .digits letter isSign isRun
  unfold afterExponent? at h
  split at h
  · exact hexponent (.inl rfl) h
  · exact hexponent (.inr rfl) h
  · obtain rfl := Option.some.inj h
    exact .none

/-- A fraction and an exponent do not begin with a digit. -/
theorem stops_append_isExponent {fraction exponent : Text} (h : IsFraction fraction)
    (h' : IsExponent exponent) : Stops Char.isDigit (fraction ++ exponent) := by
  cases h with
  | digits isRun => exact stops_cons (by decide)
  | none =>
    cases h' with
    | none => exact nofun
    | digits letter _ _ => rcases letter with rfl | rfl <;> exact stops_cons (by decide)

/-- An exponent does not begin with a point, so it is not taken for a fraction. -/
theorem IsExponent.head?_ne (h : IsExponent t) : t.head? ≠ some '.' := by
  cases h with
  | none => exact nofun
  | digits letter _ _ => rcases letter with rfl | rfl <;> exact fun hhead => by cases hhead

/-- An integer part does not begin with a minus, so none is taken off a number without a sign. -/
theorem IsInteger.head?_ne {whole : Text} (h : IsInteger whole) (rest : Text) :
    (whole ++ rest).head? ≠ some '-' := by
  cases h with
  | zero => exact fun hhead => by cases hhead
  | digits isRun _ =>
    cases whole with
    | nil => exact absurd rfl isRun.ne_nil
    | cons c whole =>
      rintro ⟨⟩
      exact absurd (isRun.all '-' List.mem_cons_self) (by decide)

/-- A text is accepted as a number exactly if it is written as one. -/
theorem isNumber_iff : isNumber t = true ↔ IsNumeral t := by
  rw [isNumber, beq_iff_eq]
  constructor
  · -- Each of the three readers leaves the rest of the text, and the last one leaves nothing.
    intro h
    simp only [Option.bind_eq_some_iff] at h
    obtain ⟨behind, ⟨behindWhole, hwhole, hfraction⟩, hexponent⟩ := h
    obtain ⟨whole, hsplit, isInteger⟩ := exists_of_afterInteger? hwhole
    obtain ⟨fraction, rfl, isFraction⟩ := exists_of_afterFraction? hfraction
    have isExponent := isExponent_of_afterExponent? hexponent
    split at hsplit
    · next hminus =>
      obtain ⟨unsigned, rfl⟩ := List.head?_eq_some_iff.mp hminus
      obtain rfl : unsigned = _ := hsplit
      exact .intro (.inr rfl) isInteger isFraction isExponent
    · subst hsplit
      exact .intro (.inl rfl) isInteger isFraction isExponent
  · rintro ⟨isSign, isInteger, isFraction, isExponent⟩
    rename_i sign whole fraction exponent
    -- An integer does not begin with a minus sign, so the sign in front is the only one.
    have hunsigned : (if (sign ++ (whole ++ (fraction ++ exponent))).head? = some '-' then
        (sign ++ (whole ++ (fraction ++ exponent))).tail
        else sign ++ (whole ++ (fraction ++ exponent))) = whole ++ (fraction ++ exponent) := by
      rcases isSign with rfl | rfl
      · exact if_neg (isInteger.head?_ne _)
      · rfl
    -- Each part ends where the next one begins, since that begins with no digit.
    have hstops : Stops Char.isDigit exponent := stops_append_isExponent .none isExponent
    rw [hunsigned, afterInteger?_append isInteger (stops_append_isExponent isFraction isExponent),
      Option.bind_some, afterFraction?_append isFraction hstops isExponent.head?_ne,
      Option.bind_some, afterExponent?_eq isExponent]

end

/-! ### Natural numbers

The decimals of a natural number are an integer part, and an integer part is the decimals of the
number that it denotes. So a numeral without a sign, a point and an exponent can be read back
exactly. -/

/-- An integer part is how the number that it denotes is written. -/
theorem IsInteger.ofNat_eq {t : Text} (h : IsInteger t) :
    Text.ofNat (Nat.ofDigitChars 10 t 0) = t := by
  cases h with
  | zero => rfl
  | digits isRun no_zero => exact ofNat_ofDigitChars isRun no_zero

/-- Only an integer part is all digits. -/
theorem IsNumeral.isInteger {t : Text} (h : IsNumeral t) (digits : ∀ c ∈ t, c.isDigit) :
    IsInteger t := by
  rcases h with ⟨isSign, isInteger, isFraction, isExponent⟩
  simp only [List.forall_mem_append] at digits
  obtain ⟨hsign, -, hfraction, hexponent⟩ := digits
  -- A minus sign, a point and the letter of an exponent are no digits.
  rcases isSign with rfl | rfl
  · cases isFraction with
    | digits => exact absurd (hfraction '.' List.mem_cons_self) (by decide)
    | none =>
      cases isExponent with
      | digits letter =>
        have hletter := hexponent _ List.mem_cons_self
        rcases letter with rfl | rfl
        · exact absurd hletter (by decide)
        · exact absurd hletter (by decide)
      | none => simpa using isInteger
  · exact absurd (hsign '-' List.mem_cons_self) (by decide)

/-- A natural number is written as an integer part: a zero by itself, or digits without a leading
zero. -/
theorem isInteger_ofNat (n : Nat) : IsInteger (Text.ofNat n) := by
  cases n with
  | zero => exact .zero
  | succ n =>
    have isRun : IsRun Char.isDigit (Text.ofNat (n + 1)) :=
      ⟨Nat.toDigits_ne_nil, fun _ hc => Text.isDigit_of_mem_ofNat hc⟩
    exact .digits isRun (head?_ofNat_ne n.succ_pos)

end AsmVariants.Proofs
