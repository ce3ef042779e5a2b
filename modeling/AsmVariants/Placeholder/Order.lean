import AsmVariants.Placeholder.Basic

/-!
# `AsmVariants.Placeholder.Order`: the orders in which placeholders are expanded

Placeholders are taken either as they are first seen or by their number. `numericCompare`
compares two numbers without computing them, so the digits may run on without limit: leading
zeros aside, the longer number is the greater, and of two equally long ones the greater text.
Tokens with the same number, such as `%1` and `%01`, are ordered by their text.
-/

set_option autoImplicit false

namespace AsmVariants

namespace Placeholder

/-- The digits that make up the number, without leading zeros. -/
def significantDigits (p : Placeholder) : Text := p.digits.dropWhile (· == '0')

/-- Placeholders by number; by token where the numbers are the same. -/
def numericCompare (p q : Placeholder) : Ordering :=
  (compare p.significantDigits.length q.significantDigits.length).then
    ((Text.dictionaryOrder p.significantDigits q.significantDigits).then
      (Text.dictionaryOrder p.token q.token))

end Placeholder

/-- How the placeholders of a template are ordered. -/
inductive PlaceholderOrder where
  /-- As they appear, reading the template from its start. -/
  | firstSeen
  | numeric
  deriving DecidableEq

namespace PlaceholderOrder

/-- The name of the order in arguments and in configuration files. -/
def name : PlaceholderOrder → Text
  | firstSeen => "first-seen".toList
  | numeric => "numeric".toList

/-- What is said of a text that names no order. -/
def unknownNameMessage : Text := "Matching variant not found".toList

/-- The order with a given name. A text that names no order is refused with the message. -/
def ofName (t : Text) : Except Text PlaceholderOrder :=
  match [firstSeen, numeric].find? fun order => order.name == t with
  | none => .error unknownNameMessage
  | some order => .ok order

/-- The order with a given name, where it does not matter what is said of other texts. -/
def ofName? (t : Text) : Option PlaceholderOrder := (ofName t).toOption

/-- Each order is found under its name. -/
theorem ofName?_name (order : PlaceholderOrder) : ofName? order.name = some order := by
  cases order <;> decide

/-- The placeholders in the given order, when the list has them as they were seen. Sorting is
stable. -/
def arrange : PlaceholderOrder → List Placeholder → List Placeholder
  | firstSeen, found => found
  | numeric, found => found.mergeSort fun p q => (p.numericCompare q).isLE

end PlaceholderOrder

end AsmVariants
