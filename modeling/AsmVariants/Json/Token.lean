import AsmVariants.Json.Basic

/-!
# `AsmVariants.Json.Token`: the tokens of a JSON text

A text is read character by character by a small machine, and `Lexer.step` is all that it does.
Words and numbers end at the first character that cannot belong to them, and strings end at their
closing quote. What a string holds is first a list of code units, because an escape may stand for
one half of a surrogate pair; `Json.textOfUnits?` joins the halves.
-/

set_option autoImplicit false

namespace AsmVariants.Json

/-- A token of a JSON text. -/
inductive Token where
  | openArray
  | closeArray
  | openObject
  | closeObject
  | comma
  | colon
  /-- A word, a number or a string. -/
  | leaf (value : Json)

/-- Whether a code unit is the first half of a surrogate pair. -/
def isHighSurrogate (unit : Nat) : Bool := 0xD800 ≤ unit && unit ≤ 0xDBFF

/-- Whether a code unit is the second half of a surrogate pair. -/
def isLowSurrogate (unit : Nat) : Bool := 0xDC00 ≤ unit && unit ≤ 0xDFFF

/-- The character that a surrogate pair stands for. -/
def ofSurrogates (high low : Nat) : Char :=
  Char.ofNat (0x10000 + (high - 0xD800) * 0x400 + (low - 0xDC00))

/-- The text with the given code units. There is none if half a surrogate pair stands alone. -/
def textOfUnits? : List Nat → Option Text
  | [] => some []
  | [unit] =>
    if isHighSurrogate unit || isLowSurrogate unit then none else some [Char.ofNat unit]
  | unit :: next :: rest =>
    if isHighSurrogate unit then
      if isLowSurrogate next then (textOfUnits? rest).map (ofSurrogates unit next :: ·) else none
    else if isLowSurrogate unit then none
    else (textOfUnits? (next :: rest)).map (Char.ofNat unit :: ·)

/-- The document that a word is. -/
def ofWord? (word : Text) : Option Json :=
  if word = "null".toList then some .null
  else if word = "true".toList then some (.bool true)
  else if word = "false".toList then some (.bool false)
  else if isNumber word then some (.number word)
  else none

/-- The character that a backslash and a letter stand for. -/
def escaped? (letter : Char) : Option Char :=
  match letter with
  | '\x22' | '\x5c' | '/' => some letter
  | 'b' => some '\x08'
  | 'f' => some '\x0c'
  | 'n' => some '\n'
  | 'r' => some '\r'
  | 't' => some '\t'
  | _ => none

/-- The value of a hexadecimal digit. -/
def hexDigit? (c : Char) : Option Nat :=
  if '0' ≤ c ∧ c ≤ '9' then some (c.toNat - '0'.toNat)
  else if 'a' ≤ c ∧ c ≤ 'f' then some (c.toNat - 'a'.toNat + 10)
  else if 'A' ≤ c ∧ c ≤ 'F' then some (c.toNat - 'A'.toNat + 10)
  else none

/-- The token that is a character by itself. -/
def mark? (c : Char) : Option Token :=
  match c with
  | '[' => some .openArray
  | ']' => some .closeArray
  | '\x7b' => some .openObject
  | '\x7d' => some .closeObject
  | ',' => some .comma
  | ':' => some .colon
  | _ => none

/-- Where a lexer is in its text. -/
inductive LexerState where
  | outside
  /-- In a word or a number; the characters so far, last one first. -/
  | word (read : Text)
  /-- In a string; the code units so far, last one first. -/
  | string (units : List Nat)
  /-- In a string, behind a backslash. -/
  | escape (units : List Nat)
  /-- In a string, in the number of a code unit: its value so far and the digits to come. -/
  | codeUnit (units : List Nat) (value : Nat) (missing : Nat)

/-- A machine that cuts a text into tokens. -/
structure Lexer where
  /-- The tokens so far, last one first. -/
  tokens : List Token
  state : LexerState

namespace Lexer

/-- The machine at the start of a text. -/
def start : Lexer := ⟨[], .outside⟩

/-- The machine behind one more token. -/
def emit (lexer : Lexer) (token : Token) : Lexer := ⟨token :: lexer.tokens, .outside⟩

/-- Reads a character between two tokens. -/
def stepOutside (lexer : Lexer) (c : Char) : Lexer :=
  if isSpace c then { lexer with state := .outside }
  else if c = '\x22' then { lexer with state := .string [] }
  else
    match mark? c with
    | some token => lexer.emit token
    | none => { lexer with state := .word [c] }

/-- Whether a character ends the word before it. -/
def endsWord (c : Char) : Bool := isSpace c || c = '\x22' || (mark? c).isSome

/-- Ends a word, if the machine is in one. -/
def finishWord? (lexer : Lexer) : Option Lexer :=
  match lexer.state with
  | .word read => (ofWord? read.reverse).map fun value => lexer.emit (.leaf value)
  | _ => some lexer

/-- Reads a character. -/
def step (lexer : Lexer) (c : Char) : Option Lexer :=
  match lexer.state with
  | .outside => some (lexer.stepOutside c)
  | .word read =>
    if endsWord c then lexer.finishWord?.map fun behind => behind.stepOutside c
    else some { lexer with state := .word (c :: read) }
  | .string units =>
    if c = '\x22' then some (lexer.emit (.leaf (.string (textOfUnits? units.reverse))))
    else if c = '\x5c' then some { lexer with state := .escape units }
    else if c < ' ' then none
    else some { lexer with state := .string (c.toNat :: units) }
  | .escape units =>
    if c = 'u' then some { lexer with state := .codeUnit units 0 4 }
    else (escaped? c).map fun char => { lexer with state := .string (char.toNat :: units) }
  | .codeUnit units value missing =>
    (hexDigit? c).map fun digit =>
      let value := value * 16 + digit
      if missing ≤ 1 then { lexer with state := .string (value :: units) }
      else { lexer with state := .codeUnit units value (missing - 1) }

/-- The tokens that were read, if the text may end here. -/
def finish? (lexer : Lexer) : Option (List Token) := do
  let lexer ← lexer.finishWord?
  match lexer.state with
  | .outside => some lexer.tokens.reverse
  | _ => none

end Lexer

/-- The tokens of a text, if it consists of tokens. -/
def tokens? (t : Text) : Option (List Token) := (t.foldlM Lexer.step Lexer.start).bind Lexer.finish?

end AsmVariants.Json
