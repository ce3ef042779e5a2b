import AsmVariants.Json.Token
import AsmVariants.Proofs.List
import Mathlib.Algebra.Group.Nat.Defs
import Mathlib.Data.List.Forall2

/-!
# `AsmVariants.Proofs.Json.Strings`: what a string denotes

`IsBody` is the grammar of what stands between the quotes of a string, together with the code units
that it denotes: each piece is a character that stands for itself, an escape by a letter, or an
escape by four hexadecimal digits. `Encodes` says which code units a text has, and `HasText` adds
that there may be no such text, which is the case for half a surrogate pair.

The main statements are `IsBody.foldlM_step`, by which the lexer collects the code units of a body,
and `hasText_iff`, by which `Json.textOfUnits?` joins them as `Encodes` says.

A character beyond the first 65536 is a single unit where it stands for itself, and two where it is
escaped. `Encodes` has both, so a text can have several lists of code units, but a list has one text
at most. That the units are below the limit for characters is a fact about bodies (`IsBody.lt`),
which the joining needs.
-/

set_option autoImplicit false

namespace AsmVariants.Proofs

open Json (Lexer escaped? hexDigit? isHighSurrogate isLowSurrogate ofSurrogates textOfUnits?)

/-! ### What a string looks like

The body grows at its end, as the lexer reads it. -/

/-- A character is the hexadecimal digit for a number, with a small letter or a capital one. -/
def IsHexDigit (c : Char) (n : Nat) : Prop :=
  n < 16 ∧ (c = Nat.digitChar n ∨ c = (Nat.digitChar n).toUpper)

/-- The number that hexadecimal digits denote, the first digit counting most. -/
def valueOf (digits : List Nat) : Nat := digits.foldl (fun value digit => value * 16 + digit) 0

/-- The letters that may stand behind a backslash, each with the character that it stands for. -/
def escapes : List (Char × Char) :=
  [('\x22', '\x22'), ('\x5c', '\x5c'), ('/', '/'), ('b', '\x08'), ('f', '\x0c'), ('n', '\n'),
    ('r', '\r'), ('t', '\t')]

/-- What stands between the quotes of a string, and the code units that it denotes. -/
inductive IsBody : Text → List Nat → Prop
  | nil : IsBody [] []
  | plain {body : Text} {units : List Nat} {c : Char} (front : IsBody body units) (le : ' ' ≤ c)
      (ne_quote : c ≠ '\x22') (ne_backslash : c ≠ '\x5c') :
      IsBody (body ++ [c]) (units ++ [c.toNat])
  | escape {body : Text} {units : List Nat} {letter c : Char} (front : IsBody body units)
      (mem : (letter, c) ∈ escapes) : IsBody (body ++ ['\x5c', letter]) (units ++ [c.toNat])
  | codeUnit {body digits : Text} {units values : List Nat} (front : IsBody body units)
      (isHex : List.Forall₂ IsHexDigit digits values) (length_eq : digits.length = 4) :
      IsBody (body ++ '\x5c' :: 'u' :: digits) (units ++ [valueOf values])

/-- The code units of a text. A character is one unit, or two halves of a surrogate pair if its
code has more than 16 bits. -/
inductive Encodes : List Nat → Text → Prop
  | nil : Encodes [] []
  | single {units : List Nat} {t : Text} (c : Char) (rest : Encodes units t) :
      Encodes (c.toNat :: units) (c :: t)
  | pair {units : List Nat} {t : Text} {c : Char} (le : 0x10000 ≤ c.toNat)
      (rest : Encodes units t) :
      Encodes ((0xD800 + (c.toNat - 0x10000) / 0x400) ::
        (0xDC00 + (c.toNat - 0x10000) % 0x400) :: units) (c :: t)

/-- The text with some code units, if there is one. -/
inductive HasText (units : List Nat) : Option Text → Prop
  | text {t : Text} (encodes : Encodes units t) : HasText units (some t)
  | none (no_text : ∀ t, ¬ Encodes units t) : HasText units none

/-! ### Escapes

Digits and letters are looked up in both directions, so the lemmas are equivalences. -/

/-- The number for a hexadecimal digit is read from the digit in either case. The reader computes it
from the code of the character, in three ranges. -/
theorem hexDigit?_eq_some_iff {c : Char} {n : Nat} : hexDigit? c = some n ↔ IsHexDigit c n := by
  have hall : ∀ n < 16, hexDigit? (Nat.digitChar n) = some n ∧
      hexDigit? (Nat.digitChar n).toUpper = some n := by decide
  constructor
  · intro h
    -- Each range begins at the code of its first digit, so a code there tells the number.
    have hcode : ∀ n < 16, (n < 10 → (Nat.digitChar n).toNat = 48 + n) ∧
        (10 ≤ n → (Nat.digitChar n).toNat = 87 + n ∧ (Nat.digitChar n).toUpper.toNat = 55 + n) := by
      decide
    have hle (c d : Char) : c ≤ d ↔ c.toNat ≤ d.toNat := Iff.rfl
    simp only [hexDigit?, hle, Char.reduceToNat] at h
    split at h
    · obtain rfl := Option.some.inj h
      have hdigit := (hcode (c.toNat - 48) (by omega)).1 (by omega)
      exact ⟨by omega, .inl (Char.toNat_inj.mp (by omega))⟩
    · split at h
      · obtain rfl := Option.some.inj h
        have hsmall := (hcode (c.toNat - 97 + 10) (by omega)).2 (by omega)
        exact ⟨by omega, .inl (Char.toNat_inj.mp (by omega))⟩
      · split at h
        · obtain rfl := Option.some.inj h
          have hcapital := (hcode (c.toNat - 65 + 10) (by omega)).2 (by omega)
          exact ⟨by omega, .inr (Char.toNat_inj.mp (by omega))⟩
        · exact nomatch h
  · rintro ⟨hlt, rfl | rfl⟩
    · exact (hall n hlt).1
    · exact (hall n hlt).2

/-- The characters that a letter escapes are those of the table. -/
theorem escaped?_eq_some_iff {letter c : Char} :
    escaped? letter = some c ↔ (letter, c) ∈ escapes := by
  constructor
  · intro h
    unfold escaped? at h
    split at h <;> cases h <;> decide
  · have hall : ∀ pair ∈ escapes, escaped? pair.1 = some pair.2 := by decide
    exact hall (letter, c)

/-- The letter that introduces four digits is no other escape. -/
theorem ne_of_mem_escapes {letter c : Char} (h : (letter, c) ∈ escapes) : letter ≠ 'u' := by
  rintro rfl
  have hnone := escaped?_eq_some_iff.mpr h
  exact nomatch hnone

/-- A digit behind others counts least. -/
theorem valueOf_append (digits : List Nat) (digit : Nat) :
    valueOf (digits ++ [digit]) = valueOf digits * 16 + digit := by
  rw [valueOf, List.foldl_append]
  rfl

/-- A hexadecimal digit stands for a number below sixteen. -/
theorem lt_of_forall₂_isHexDigit {digits : Text} {values : List Nat}
    (h : List.Forall₂ IsHexDigit digits values) : ∀ value ∈ values, value < 16 := by
  induction h with
  | nil => exact nofun
  | cons hdigit _ ih => exact List.forall_mem_cons.mpr ⟨hdigit.1, ih⟩

/-- So many digits denote a number below that power of sixteen. Four of them fit in a code unit. -/
theorem valueOf_lt {values : List Nat} (h : ∀ value ∈ values, value < 16) :
    valueOf values < 16 ^ values.length := by
  induction values using List.reverseRecOn with
  | nil => decide
  | append_singleton values value ih =>
    have hfront := ih fun value hvalue => h value (List.mem_append_left _ hvalue)
    have hlast := h value (by simp)
    rw [valueOf_append, List.length_append, List.length_singleton, Nat.pow_succ]
    omega

/-! ### Code units

A text is encoded character by character, and a list of units is read from the front. A half of a
pair is no character, so there is never a choice between reading one unit or two. -/

/-- The first halves of pairs are a range of code units. -/
theorem isHighSurrogate_iff {unit : Nat} :
    isHighSurrogate unit = true ↔ 0xD800 ≤ unit ∧ unit ≤ 0xDBFF := by
  simp [isHighSurrogate]

/-- The second halves are the range behind it. -/
theorem isLowSurrogate_iff {unit : Nat} :
    isLowSurrogate unit = true ↔ 0xDC00 ≤ unit ∧ unit ≤ 0xDFFF := by
  simp [isLowSurrogate]

/-- A unit that is no half of a pair begins the text by itself. -/
theorem textOfUnits?_cons {unit : Nat} (rest : List Nat) (high : ¬ isHighSurrogate unit = true)
    (low : ¬ isLowSurrogate unit = true) :
    textOfUnits? (unit :: rest) = (textOfUnits? rest).map (Char.ofNat unit :: ·) := by
  rw [Bool.not_eq_true] at high low
  cases rest <;> simp [textOfUnits?, high, low]

/-- Two halves in a row begin the text with the character that they stand for. -/
theorem textOfUnits?_cons_cons {unit next : Nat} (rest : List Nat)
    (high : isHighSurrogate unit = true) (low : isLowSurrogate next = true) :
    textOfUnits? (unit :: next :: rest) =
      (textOfUnits? rest).map (ofSurrogates unit next :: ·) := by
  simp [textOfUnits?, high, low]

/-- A number outside of the range of the halves is the code of its character. -/
theorem toNat_ofNat {n : Nat} (h : n < 0xD800 ∨ 0xDFFF < n ∧ n < 0x110000) :
    (Char.ofNat n).toNat = n := by
  rw [Char.ofNat, dif_pos h]
  rfl

/-- A character is its two halves. -/
theorem ofSurrogates_eq {c : Char} (h : 0x10000 ≤ c.toNat) :
    ofSurrogates (0xD800 + (c.toNat - 0x10000) / 0x400)
      (0xDC00 + (c.toNat - 0x10000) % 0x400) = c := by
  have hsum : 0x10000 + (0xD800 + (c.toNat - 0x10000) / 0x400 - 0xD800) * 0x400 +
      (0xDC00 + (c.toNat - 0x10000) % 0x400 - 0xDC00) = c.toNat := by omega
  rw [ofSurrogates, hsum, Char.ofNat_toNat]

/-- The code of the character that two halves stand for has ten bits of each. -/
theorem toNat_ofSurrogates {high low : Nat} (hhigh : isHighSurrogate high = true)
    (hlow : isLowSurrogate low = true) :
    (ofSurrogates high low).toNat = 0x10000 + (high - 0xD800) * 0x400 + (low - 0xDC00) := by
  rw [isHighSurrogate_iff] at hhigh
  rw [isLowSurrogate_iff] at hlow
  exact toNat_ofNat (by omega)

/-- The code units of a text are read as the text. -/
theorem Encodes.textOfUnits?_eq {units : List Nat} {t : Text} (h : Encodes units t) :
    textOfUnits? units = some t := by
  induction h with
  | nil => rfl
  | single c _ ih =>
    -- No character is a half of a pair.
    have hvalid : c.toNat < 0xD800 ∨ 0xDFFF < c.toNat ∧ c.toNat < 0x110000 := c.valid
    rw [textOfUnits?_cons _ (by rw [isHighSurrogate_iff]; omega)
      (by rw [isLowSurrogate_iff]; omega), ih, Char.ofNat_toNat]
    rfl
  | @pair units t c hle _ ih =>
    have hvalid : c.toNat < 0xD800 ∨ 0xDFFF < c.toNat ∧ c.toNat < 0x110000 := c.valid
    rw [textOfUnits?_cons_cons _ (isHighSurrogate_iff.mpr (by omega))
      (isLowSurrogate_iff.mpr (by omega)), ih, ofSurrogates_eq hle]
    rfl

/-- A unit that is no half of a pair is the code of a character. -/
theorem Encodes.cons {unit : Nat} {units : List Nat} {t : Text} (hlt : unit < 0x110000)
    (high : ¬ isHighSurrogate unit = true) (low : ¬ isLowSurrogate unit = true)
    (rest : Encodes units t) : Encodes (unit :: units) (Char.ofNat unit :: t) := by
  rw [isHighSurrogate_iff] at high
  rw [isLowSurrogate_iff] at low
  have h := Encodes.single (Char.ofNat unit) rest
  rwa [toNat_ofNat (by omega)] at h

/-- Two halves of a pair are those of the character that they stand for. -/
theorem Encodes.cons_cons {high low : Nat} {units : List Nat} {t : Text}
    (hhigh : isHighSurrogate high = true) (hlow : isLowSurrogate low = true)
    (rest : Encodes units t) :
    Encodes (high :: low :: units) (ofSurrogates high low :: t) := by
  have hcode := toNat_ofSurrogates hhigh hlow
  rw [isHighSurrogate_iff] at hhigh
  rw [isLowSurrogate_iff] at hlow
  have h := Encodes.pair (c := ofSurrogates high low) (by omega) rest
  rw [hcode] at h
  have hfirst : 0xD800 +
      (0x10000 + (high - 0xD800) * 0x400 + (low - 0xDC00) - 0x10000) / 0x400 = high := by omega
  have hsecond : 0xDC00 +
      (0x10000 + (high - 0xD800) * 0x400 + (low - 0xDC00) - 0x10000) % 0x400 = low := by omega
  rwa [hfirst, hsecond] at h

/-- The text that is read from code units has these code units. The cases are those of the reader: a
half that stands alone ends it, and two halves or any other unit are a character. -/
theorem encodes_of_textOfUnits? {units : List Nat} {t : Text}
    (hlt : ∀ unit ∈ units, unit < 0x110000) (h : textOfUnits? units = some t) :
    Encodes units t := by
  induction units using Json.textOfUnits?.induct generalizing t with
  | case1 =>
    obtain rfl := Option.some.inj h
    exact .nil
  | case2 unit hhalf =>
    -- A half that is the last unit is refused.
    rw [textOfUnits?, if_pos hhalf] at h
    exact nomatch h
  | case3 unit hhalf =>
    rw [textOfUnits?, if_neg hhalf] at h
    obtain rfl := Option.some.inj h
    rw [Bool.or_eq_true, not_or] at hhalf
    exact .cons (hlt unit List.mem_cons_self) hhalf.1 hhalf.2 .nil
  | case4 high low units hhigh hlow ih =>
    rw [textOfUnits?_cons_cons units hhigh hlow, Option.map_eq_some_iff] at h
    obtain ⟨rest, hrest, rfl⟩ := h
    exact .cons_cons hhigh hlow (ih (fun unit hunit => hlt unit (by simp [hunit])) hrest)
  | case5 high next units hhigh hlow =>
    -- A first half without a second one behind it is refused.
    rw [textOfUnits?, if_pos hhigh, if_neg hlow] at h
    exact nomatch h
  | case6 low next units hhigh hlow =>
    -- A second half without a first one in front of it is refused.
    rw [textOfUnits?, if_neg hhigh, if_pos hlow] at h
    exact nomatch h
  | case7 unit next units hhigh hlow ih =>
    rw [textOfUnits?_cons _ hhigh hlow, Option.map_eq_some_iff] at h
    obtain ⟨rest, hrest, rfl⟩ := h
    exact .cons (hlt unit List.mem_cons_self) hhigh hlow
      (ih (fun unit hunit => hlt unit (List.mem_cons_of_mem _ hunit)) hrest)

/-- The units are joined to the text that they are the code units of, if there is one. -/
theorem hasText_iff {units : List Nat} (hlt : ∀ unit ∈ units, unit < 0x110000)
    {text? : Option Text} : HasText units text? ↔ textOfUnits? units = text? := by
  have hencodes (t : Text) : Encodes units t ↔ textOfUnits? units = some t :=
    ⟨Encodes.textOfUnits?_eq, encodes_of_textOfUnits? hlt⟩
  constructor
  · rintro (encodes | no_text)
    · exact encodes.textOfUnits?_eq
    · simp only [hencodes] at no_text
      exact Option.eq_none_iff_forall_ne_some.mpr no_text
  · rintro rfl
    cases hread : textOfUnits? units with
    | some t => exact .text ((hencodes t).mpr hread)
    | none =>
      refine .none fun t encodes => ?_
      rw [hencodes, hread] at encodes
      exact nomatch encodes

/-! ### Bodies

The lexer has a state for each place in an escape. Between two pieces of a body it is back in the
state for a string, with the units that it has read. -/

/-- The code units of a body are codes of characters or halves of pairs, so the reader never meets a
number beyond those. -/
theorem IsBody.lt {body : Text} {units : List Nat} (h : IsBody body units) :
    ∀ unit ∈ units, unit < 0x110000 := by
  have hchar (c : Char) : c.toNat < 0x110000 := by
    have hvalid : c.toNat < 0xD800 ∨ 0xDFFF < c.toNat ∧ c.toNat < 0x110000 := c.valid
    omega
  have hlast {units : List Nat} {last : Nat} (front : ∀ unit ∈ units, unit < 0x110000)
      (hlt : last < 0x110000) : ∀ unit ∈ units ++ [last], unit < 0x110000 := by
    exact List.forall_mem_append.mpr ⟨front, List.forall_mem_singleton.mpr hlt⟩
  induction h with
  | nil => exact nofun
  | plain _ _ _ _ ih => exact hlast ih (hchar _)
  | escape _ _ ih => exact hlast ih (hchar _)
  | codeUnit _ isHex length_eq ih =>
    -- Four hexadecimal digits make no larger number.
    have hvalue := valueOf_lt (lt_of_forall₂_isHexDigit isHex)
    rw [← isHex.length_eq, length_eq] at hvalue
    exact hlast ih (by omega)

section

variable {tokens : List Json.Token}

/-- The digits of a code unit are read as the code unit. -/
theorem foldlM_codeUnit {digits : Text} {values : List Nat}
    (h : List.Forall₂ IsHexDigit digits values) (hne : digits ≠ []) (units : List Nat)
    (value : Nat) :
    digits.foldlM Lexer.step ⟨tokens, .codeUnit units value digits.length⟩ =
      some ⟨tokens, .string
        (values.foldl (fun value digit => value * 16 + digit) value :: units)⟩ := by
  induction h generalizing value with
  | nil => exact absurd rfl hne
  | @cons c digit digits values hdigit hrest ih =>
    have hread := hexDigit?_eq_some_iff.mpr hdigit
    cases digits with
    | nil =>
      -- The last digit completes the unit.
      cases hrest
      have hstep : Lexer.step ⟨tokens, .codeUnit units value 1⟩ c =
          some ⟨tokens, .string ((value * 16 + digit) :: units)⟩ := by
        simp [Lexer.step, hread]
      exact foldlM_cons_of_eq_some hstep []
    | cons next digits =>
      have hstep : Lexer.step ⟨tokens, .codeUnit units value (c :: next :: digits).length⟩ c =
          some ⟨tokens, .codeUnit units (value * 16 + digit) (next :: digits).length⟩ := by
        simp [Lexer.step, hread]
      rw [foldlM_cons_of_eq_some hstep]
      exact ih (List.cons_ne_nil next digits) _

/-- The lexer collects the code units of a string. -/
theorem IsBody.foldlM_step {body : Text} {units : List Nat} (h : IsBody body units) :
    body.foldlM Lexer.step ⟨tokens, .string []⟩ = some ⟨tokens, .string units.reverse⟩ := by
  induction h with
  | nil => rfl
  | @plain body units c _ hle hquote hbackslash ih =>
    -- The lexer holds the units backwards, so a new one goes in front.
    have hstep : Lexer.step ⟨tokens, .string units.reverse⟩ c =
        some ⟨tokens, .string (c.toNat :: units.reverse)⟩ := by
      simp only [Lexer.step, if_neg hquote, if_neg hbackslash, if_neg (Char.not_lt.mpr hle)]
    rw [foldlM_append_of_eq_some ih, foldlM_cons_of_eq_some hstep, List.reverse_concat]
    rfl
  | @escape body units letter c _ hmem ih =>
    have hbackslash : Lexer.step ⟨tokens, .string units.reverse⟩ '\x5c' =
        some ⟨tokens, .escape units.reverse⟩ := rfl
    have hletter : Lexer.step ⟨tokens, .escape units.reverse⟩ letter =
        some ⟨tokens, .string (c.toNat :: units.reverse)⟩ := by
      simp [Lexer.step, ne_of_mem_escapes hmem, escaped?_eq_some_iff.mpr hmem]
    rw [foldlM_append_of_eq_some ih, foldlM_cons_of_eq_some hbackslash,
      foldlM_cons_of_eq_some hletter, List.reverse_concat]
    rfl
  | @codeUnit body digits units values _ isHex length_eq ih =>
    have hbackslash : Lexer.step ⟨tokens, .string units.reverse⟩ '\x5c' =
        some ⟨tokens, .escape units.reverse⟩ := rfl
    have hletter : Lexer.step ⟨tokens, .escape units.reverse⟩ 'u' =
        some ⟨tokens, .codeUnit units.reverse 0 digits.length⟩ := by
      rw [length_eq]
      rfl
    have hne : digits ≠ [] := List.ne_nil_of_length_pos (by omega)
    rw [foldlM_append_of_eq_some ih, foldlM_cons_of_eq_some hbackslash,
      foldlM_cons_of_eq_some hletter, foldlM_codeUnit isHex hne, List.reverse_concat]
    rfl

end

/-! ### Names

A name in which no character has to be escaped is its own body. Those that a configuration is
written with are such names. -/

/-- A text without quotes, backslashes and control characters stands for itself. -/
def IsPlain (t : Text) : Prop := ∀ c ∈ t, ' ' ≤ c ∧ c ≠ '\x22' ∧ c ≠ '\x5c'

/-- Whether a text is plain is checked character by character. -/
instance (t : Text) : Decidable (IsPlain t) := List.decidableBAll _ t

/-- A plain text stands between quotes as it is. -/
theorem IsPlain.isBody {t : Text} (h : IsPlain t) : IsBody t (t.map Char.toNat) := by
  induction t using List.reverseRecOn with
  | nil => exact .nil
  | append_singleton t c ih =>
    obtain ⟨hle, hquote, hbackslash⟩ := h c (by simp)
    rw [List.map_append, List.map_singleton]
    exact .plain (ih fun c hc => h c (List.mem_append_left _ hc)) hle hquote hbackslash

/-- The codes of the characters are code units of the text. Not all of them fit in 16 bits, but a
character is allowed to stand for itself in a string, whatever its code. -/
theorem encodes_map_toNat (t : Text) : Encodes (t.map Char.toNat) t := by
  induction t with
  | nil => exact .nil
  | cons c t ih => exact .single c ih

end AsmVariants.Proofs
