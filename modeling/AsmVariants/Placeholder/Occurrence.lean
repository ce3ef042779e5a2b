import AsmVariants.Placeholder.Basic

/-!
# `AsmVariants.Placeholder.Occurrence`: where a placeholder stands in a text

A placeholder occurs where its token stands and no digit follows, so `%1` does not occur in
`%12`. A token begins with a percent sign and has no other one, so two occurrences never
overlap. Four questions are answered by one walk each:

* `occursIn`: is there an occurrence?
* `occurrences`: at which offsets, counted in UTF-8 bytes?
* `textsAfter`: what follows each occurrence?
* `replace`: the text with a value in place of each occurrence. What is put in is not searched
  again.
-/

set_option autoImplicit false

namespace AsmVariants.Placeholder

/-- Whether a text begins with one of the digits `0` to `9`. -/
def startsWithDigit (t : Text) : Bool := t.head?.any Char.isDigit

/-- What follows the placeholder, if the text begins with an occurrence of it. -/
def textAfter? (p : Placeholder) (t : Text) : Option Text :=
  (p.token.isPrefixOf? t).filter fun rest => !startsWithDigit rest

/-- Whether the text begins with an occurrence of the placeholder. -/
def opens (p : Placeholder) (t : Text) : Bool := (p.textAfter? t).isSome

/-- Whether the placeholder occurs in the text. -/
def occursIn (p : Placeholder) : Text → Bool
  | [] => false
  | c :: cs => p.opens (c :: cs) || p.occursIn cs

/-- The offsets of the occurrences in a text that itself begins at a given offset. -/
def occurrencesFrom (p : Placeholder) : Nat → Text → List Nat
  | _, [] => []
  | offset, c :: cs =>
    if p.opens (c :: cs) then offset :: p.occurrencesFrom (offset + c.utf8Size) cs
    else p.occurrencesFrom (offset + c.utf8Size) cs

/-- The offsets of the occurrences, in UTF-8 bytes from the start of the text. -/
def occurrences (p : Placeholder) (t : Text) : List Nat := p.occurrencesFrom 0 t

/-- What follows each occurrence, from the first occurrence to the last. -/
def textsAfter (p : Placeholder) : Text → List Text
  | [] => []
  | c :: cs =>
    match p.textAfter? (c :: cs) with
    | some rest => rest :: p.textsAfter cs
    | none => p.textsAfter cs

/-- The replacement in a text whose first `skip` characters belong to an occurrence that has
already been replaced. -/
def replaceFrom (p : Placeholder) (value : Text) : Nat → Text → Text
  | _, [] => []
  | skip + 1, _ :: cs => p.replaceFrom value skip cs
  | 0, c :: cs =>
    if p.opens (c :: cs) then value ++ p.replaceFrom value p.digits.length cs
    else c :: p.replaceFrom value 0 cs

/-- The text with the value in place of every occurrence of the placeholder. -/
def replace (p : Placeholder) (value t : Text) : Text := p.replaceFrom value 0 t

/-- Skipping characters of a text is dropping them. -/
theorem replaceFrom_eq_drop (p : Placeholder) (value : Text) (skip : Nat) (t : Text) :
    p.replaceFrom value skip t = p.replaceFrom value 0 (t.drop skip) := by
  induction t generalizing skip with
  | nil => cases skip <;> simp [replaceFrom]
  | cons c cs ih =>
    cases skip with
    | zero => simp
    | succ n => rw [replaceFrom, List.drop_succ_cons, ih]

end AsmVariants.Placeholder
