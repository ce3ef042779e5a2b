import AsmVariants.Text.Blank

/-!
# `AsmVariants.Text.Basic`: text as a list of characters

All text of this library (templates, values, paths, arguments, reports) is a list of
characters, so that cutting, searching and replacing are recursions that can be reasoned
about. The operations here are the ones that every later module shares:

* `Text.splitLines` cuts behind each newline, and `flatten_splitLines` says that the lines put
  together again are the text.
* `Text.trim` drops white space at both ends.
* `Text.toUtf8` and `Text.ofUtf8?` pass between text and bytes, and `ofUtf8?_toUtf8` says that
  encoding loses nothing.
-/

set_option autoImplicit false

namespace AsmVariants

/-- A text is the list of its characters. -/
abbrev Text := List Char

namespace Text

/-- The number of bytes that the text takes in UTF-8. -/
def utf8Size (t : Text) : Nat := t.foldr (fun c size => c.utf8Size + size) 0

/-- The lines of a text, each with its newline; the last one may lack it. The empty text has
no lines. -/
def splitLines : Text → List Text
  | [] => []
  | c :: cs =>
    if c = '\n' then [c] :: splitLines cs
    else
      match splitLines cs with
      | [] => [[c]]
      | line :: lines => (c :: line) :: lines

/-- Cutting a text into lines loses nothing. -/
theorem flatten_splitLines (t : Text) : (splitLines t).flatten = t := by
  induction t with
  | nil => rfl
  | cons c cs ih =>
    unfold splitLines
    split
    · simp [ih]
    · cases h : splitLines cs with
      | nil => simpa [h] using ih
      | cons line lines => simpa [h] using ih

/-- A line without its terminator: a newline, or a carriage return and a newline. -/
def dropTerminator (line : Text) : Text :=
  match line.reverse with
  | '\n' :: '\r' :: rest => rest.reverse
  | '\n' :: rest => rest.reverse
  | _ => line

/-- The text without the white space at its end. -/
def trimEnd (t : Text) : Text := (t.reverse.dropWhile isBlank).reverse

/-- The text without the white space at both ends. -/
def trim (t : Text) : Text := trimEnd (t.dropWhile isBlank)

/-- Texts in the order of a dictionary, by the code points of their characters. -/
def dictionaryOrder : Text → Text → Ordering := List.compareLex compare

/-- A number in decimal digits, without leading zeros. -/
def ofNat (n : Nat) : Text := Nat.toDigits 10 n

/-- The UTF-8 bytes of a text. -/
def toUtf8 (t : Text) : ByteArray := (String.ofList t).toUTF8

/-- The text that some bytes encode, if they are UTF-8. -/
def ofUtf8? (bytes : ByteArray) : Option Text := (String.fromUTF8? bytes).map String.toList

/-- Encoding loses nothing. -/
@[simp] theorem ofUtf8?_toUtf8 (t : Text) : ofUtf8? (toUtf8 t) = some t := by
  have valid : (toUtf8 t).IsValidUTF8 := (String.ofList t).isValidUTF8
  have same : String.fromUTF8 (toUtf8 t) valid = String.ofList t := rfl
  simp [ofUtf8?, String.fromUTF8?, valid, same]

end Text

end AsmVariants
