import AsmVariants.Text.Basic

/-!
# `AsmVariants.Placeholder.Basic`: placeholders and their tokens

A placeholder is named by a run of digits. Its token is a percent sign and that run, as in
`%1` or `%007`; tokens that differ in leading zeros are different placeholders. Two statements
tie the token to the placeholder:

* `ofToken?_token`: reading a token gives its placeholder back.
* `ofToken?_eq_some_iff`: the tokens are the only texts that are read.
-/

set_option autoImplicit false

namespace AsmVariants

/-- A placeholder: a run of digits that is not empty. -/
structure Placeholder where
  digits : Text
  digits_ne_nil : digits ≠ []
  all_isDigit : digits.all Char.isDigit
  deriving DecidableEq

namespace Placeholder

/-- The placeholder with the given name, if the name is a run of digits. -/
def ofDigits? (digits : Text) : Option Placeholder :=
  if h : digits ≠ [] ∧ digits.all Char.isDigit then some ⟨digits, h.1, h.2⟩ else none

/-- A character of the name is a digit. -/
theorem isDigit_of_mem (p : Placeholder) {c : Char} (h : c ∈ p.digits) : c.isDigit :=
  List.all_eq_true.mp p.all_isDigit c h

/-- How the placeholder is written in a template. -/
def token (p : Placeholder) : Text := '%' :: p.digits

/-- The placeholder that a token names. -/
def ofToken? : Text → Option Placeholder
  | [] => none
  | c :: digits => if c = '%' then ofDigits? digits else none

/-- A run of digits names the placeholder with these digits. -/
theorem ofDigits?_eq_some_iff {digits : Text} {p : Placeholder} :
    ofDigits? digits = some p ↔ digits = p.digits := by
  unfold ofDigits?
  constructor
  · intro h
    split at h
    · exact congrArg Placeholder.digits (Option.some.inj h)
    · exact nomatch h
  · intro h
    subst h
    rw [dif_pos ⟨p.digits_ne_nil, p.all_isDigit⟩]

/-- A text is read as a placeholder exactly if it is the placeholder's token. -/
theorem ofToken?_eq_some_iff {t : Text} {p : Placeholder} :
    ofToken? t = some p ↔ t = p.token := by
  cases t with
  | nil => simp [ofToken?, token]
  | cons c digits =>
    by_cases h : c = '%'
    · simp [ofToken?, token, h, ofDigits?_eq_some_iff]
    · simp [ofToken?, token, h]

/-- Reading a token gives its placeholder back. -/
theorem ofToken?_token (p : Placeholder) : ofToken? p.token = some p :=
  ofToken?_eq_some_iff.mpr rfl

end Placeholder

end AsmVariants
