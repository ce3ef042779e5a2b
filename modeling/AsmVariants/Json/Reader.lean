import AsmVariants.Json.Token

/-!
# `AsmVariants.Json.Reader`: from tokens to a document

A document is read token by token. `Reader.around` holds the arrays and objects that are not
closed yet, innermost first, so a document may nest as deep as it likes, and `Reader.step` says
which token may follow which.
-/

set_option autoImplicit false

namespace AsmVariants.Json

/-- An array or an object that has a value to come. -/
inductive Frame where
  /-- An array; its items so far, last one first. -/
  | array (items : List Json)
  /-- An object; its members so far, last one first, and the key of the value to come. -/
  | object (members : List (Option Text × Json)) (key : Option Text)

/-- What may come next. -/
inductive Expectation where
  | value
  /-- The first item of an array, or its end. -/
  | firstItem
  /-- The first key of an object, or its end. -/
  | firstKey
  /-- A key behind these members. -/
  | nextKey (members : List (Option Text × Json))
  | colon (members : List (Option Text × Json)) (key : Option Text)
  /-- What follows a value. -/
  | behind (value : Json)

/-- A machine that puts tokens together. -/
structure Reader where
  /-- The arrays and objects around the place, innermost first. -/
  around : List Frame
  next : Expectation

namespace Reader

/-- The machine before the first token. -/
def start : Reader := ⟨[], .value⟩

/-- Reads the first token of a value. -/
def stepValue? (around : List Frame) : Token → Option Reader
  | .leaf value => some ⟨around, .behind value⟩
  | .openArray => some ⟨around, .firstItem⟩
  | .openObject => some ⟨around, .firstKey⟩
  | _ => none

/-- Reads the first token of an item, inside an array with some items. -/
def stepItem? (around : List Frame) (items : List Json) (token : Token) : Option Reader :=
  stepValue? (.array items :: around) token

/-- Reads a key. -/
def stepKey? (around : List Frame) (members : List (Option Text × Json)) :
    Token → Option Reader
  | .leaf (.string key) => some ⟨around, .colon members key⟩
  | _ => none

/-- Reads what follows a value. -/
def stepBehind? (value : Json) : List Frame → Token → Option Reader
  | .array items :: around, .comma => some ⟨.array (value :: items) :: around, .value⟩
  | .array items :: around, .closeArray =>
    some ⟨around, .behind (.array (value :: items).reverse)⟩
  | .object members key :: around, .comma => some ⟨around, .nextKey ((key, value) :: members)⟩
  | .object members key :: around, .closeObject =>
    some ⟨around, .behind (.object ((key, value) :: members).reverse)⟩
  | _, _ => none

/-- Reads a token. -/
def step (reader : Reader) (token : Token) : Option Reader :=
  match reader.next, token with
  | .value, token => stepValue? reader.around token
  | .firstItem, .closeArray => some ⟨reader.around, .behind (.array [])⟩
  | .firstItem, token => stepItem? reader.around [] token
  | .firstKey, .closeObject => some ⟨reader.around, .behind (.object [])⟩
  | .firstKey, token => stepKey? reader.around [] token
  | .nextKey members, token => stepKey? reader.around members token
  | .colon members key, .colon => some ⟨.object members key :: reader.around, .value⟩
  | .colon .., _ => none
  | .behind value, token => stepBehind? value reader.around token

/-- The document that was read, if the text may end here. -/
def finish? (reader : Reader) : Option Json :=
  match reader.around, reader.next with
  | [], .behind value => some value
  | _, _ => none

end Reader

/-- The document with the given tokens. -/
def ofTokens? (tokens : List Token) : Option Json :=
  (tokens.foldlM Reader.step Reader.start).bind Reader.finish?

/-- The document with the given text. -/
def ofText? (t : Text) : Option Json := (tokens? t).bind ofTokens?

end AsmVariants.Json
