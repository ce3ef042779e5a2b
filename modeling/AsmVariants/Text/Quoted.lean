import AsmVariants.Text.Basic
import AsmVariants.Text.Unprintable

/-!
# `AsmVariants.Text.Quoted`: text between quotes

Messages show values and paths in double quotes, so that blanks and control characters in them
can be told from the message around it. Six characters have a short escape, and an unprintable
one is named by its code point in hexadecimal. An apostrophe is no quote here and stays as it is.
-/

set_option autoImplicit false

namespace AsmVariants.Text

/-- The spelling of a code point: a backslash, a `u`, and the hexadecimal number in braces. -/
def codePointEscape (c : Char) : Text :=
  ['\x5c', 'u', '\x7b'] ++ Nat.toDigits 16 c.toNat ++ ['\x7d']

/-- How a character is written between quotes. -/
def escape (c : Char) : Text :=
  if c = '\x00' then ['\x5c', '0']
  else if c = '\t' then ['\x5c', 't']
  else if c = '\n' then ['\x5c', 'n']
  else if c = '\r' then ['\x5c', 'r']
  else if c = '\x5c' ∨ c = '\x22' then ['\x5c', c]
  else if isUnprintable c then codePointEscape c
  else [c]

/-- The text in double quotes. -/
def quote (t : Text) : Text := ['\x22'] ++ t.flatMap escape ++ ['\x22']

/-- A list of values in brackets, each in quotes, with a comma and a blank between two. -/
def quoteList (values : List Text) : Text :=
  ['['] ++ [',', ' '].intercalate (values.map quote) ++ [']']

end AsmVariants.Text
