import AsmVariants.Text.Basic

/-!
# `AsmVariants.Json.Basic`: JSON documents

A document is a tree. Two leaves keep more than a value would:

* A number is kept as it is written, so that `1` and `1.0` stay apart and no number is too large.
* A string may hold an escape for one half of a surrogate pair without the other half. Such a
  string is not a text; it stands in a document as `string none`.
-/

set_option autoImplicit false

namespace AsmVariants

/-- A JSON document. -/
inductive Json where
  | null
  | bool (value : Bool)
  /-- A number, as written. -/
  | number (literal : Text)
  /-- A string, with its text if it has one. -/
  | string (text? : Option Text)
  | array (items : List Json)
  /-- An object, with all its members in order. -/
  | object (members : List (Option Text × Json))

namespace Json

/-- Whether a character may stand around tokens. -/
def isSpace (c : Char) : Bool := c = ' ' || c = '\n' || c = '\t' || c = '\r'

/-- The rest of a text behind at least one digit and all that follow it. -/
def afterDigits? (t : Text) : Option Text :=
  match t.span Char.isDigit with
  | ([], _) => none
  | (_, rest) => some rest

/-- The rest of a text behind the integer part of a number. A zero stands alone. -/
def afterInteger? : Text → Option Text
  | '0' :: rest => some rest
  | t => afterDigits? t

/-- The rest of a text behind the fraction of a number, if there is one. -/
def afterFraction? : Text → Option Text
  | '.' :: rest => afterDigits? rest
  | t => some t

/-- A text without the sign at its start. -/
def dropSign : Text → Text
  | '+' :: rest | '-' :: rest => rest
  | t => t

/-- The rest of a text behind the exponent of a number, if there is one. -/
def afterExponent? : Text → Option Text
  | 'e' :: rest | 'E' :: rest => afterDigits? (dropSign rest)
  | t => some t

/-- Whether a text is a number: an integer, maybe with a minus before it, a fraction behind it
and an exponent behind that. -/
def isNumber (t : Text) : Bool :=
  let unsigned := if t.head? = some '-' then t.tail else t
  ((afterInteger? unsigned).bind afterFraction?).bind afterExponent? == some []

end Json

end AsmVariants
