import AsmVariants.Proofs.Json.Number
import AsmVariants.Proofs.Json.Strings
import Mathlib.Data.List.Chain

/-!
# `AsmVariants.Proofs.Json.Token`: what the lexer reads

`Spelling` says how each token is spelled, and `LaidOut` that a text is the spellings of some
tokens with any white space before, between and behind them.

* `laidOut_of_tokens?`: what the lexer reads off a text is laid out in it. The lexer remembers what
  it has read: `Lexed` says what text led to each of its states, and `Lexed.step` keeps this.
* `LaidOut.tokens?_eq`: tokens that are laid out are read, provided that of each two neighbours one
  is a mark. Two leaves may touch, and then they are read as one or not at all.

A mark or a string ends with its own last character. A word, which is a name or a number, ends only
where something else begins, so the lexer holds it back until then. On the way in, `Inside.word` is
about the part that is held back. In the other direction `HasRead` counts a word as read when its
last character is, and `step_of_endsWord` says that the next character finishes it.
-/

set_option autoImplicit false

namespace AsmVariants.Proofs

open Json (Lexer LexerState Token isSpace mark? ofWord? textOfUnits?)
open Json.Lexer (endsWord)

/-- A token is spelled so. -/
inductive Spelling : Token → Text → Prop
  | openArray : Spelling .openArray ['[']
  | closeArray : Spelling .closeArray [']']
  | openObject : Spelling .openObject ['\x7b']
  | closeObject : Spelling .closeObject ['\x7d']
  | comma : Spelling .comma [',']
  | colon : Spelling .colon [':']
  | null : Spelling (.leaf .null) "null".toList
  | true : Spelling (.leaf (.bool true)) "true".toList
  | false : Spelling (.leaf (.bool false)) "false".toList
  | number {w : Text} (isNumeral : IsNumeral w) : Spelling (.leaf (.number w)) w
  | string {body : Text} {units : List Nat} {text? : Option Text} (isBody : IsBody body units)
      (hasText : HasText units text?) :
      Spelling (.leaf (.string text?)) ('\x22' :: (body ++ ['\x22']))

/-- The text is the spellings of the tokens, with white space around them. -/
inductive LaidOut : List Token → Text → Prop
  | nil : LaidOut [] []
  | space {tokens : List Token} {t : Text} {c : Char} (front : LaidOut tokens t)
      (isSpace : isSpace c = true) : LaidOut tokens (t ++ [c])
  | token {tokens : List Token} {t w : Text} {token : Token} (front : LaidOut tokens t)
      (spelling : Spelling token w) : LaidOut (tokens ++ [token]) (t ++ w)

/-! ### Marks and words -/

/-- A word, which no character that ends one is part of. -/
def IsWord (w : Text) : Prop := IsRun (fun c => !endsWord c) w

/-- Whether a text is a word is checked character by character. -/
instance (w : Text) : Decidable (IsWord w) := inferInstanceAs (Decidable (IsRun _ w))

/-- A mark is spelled as its character. -/
theorem spelling_of_mark? {c : Char} {token : Token} (h : mark? c = some token) :
    Spelling token [c] := by
  unfold mark? at h
  split at h <;> cases h <;> constructor

/-- What a word is read as is spelled so. -/
theorem spelling_of_ofWord? {w : Text} {value : Json} (h : ofWord? w = some value) :
    Spelling (.leaf value) w := by
  -- In the order in which they are tried: the three names, and then a number.
  unfold ofWord? at h
  split at h
  · next hnull =>
    cases h
    exact hnull ▸ .null
  · split at h
    · next htrue =>
      cases h
      exact htrue ▸ .true
    · split at h
      · next hfalse =>
        cases h
        exact hfalse ▸ .false
      · split at h
        · next hnumber =>
          cases h
          exact .number (isNumber_iff.mp hnumber)
        · exact nomatch h

/-- A number is read as a number, since it is none of the three names. -/
theorem ofWord?_of_isNumeral {w : Text} (h : IsNumeral w) : ofWord? w = some (.number w) := by
  have hnumber := isNumber_iff.mpr h
  have hne {word : Text} (hword : Json.isNumber word = false) : w ≠ word := by
    rintro rfl
    rw [hword] at hnumber
    exact nomatch hnumber
  rw [ofWord?, if_neg (hne rfl), if_neg (hne rfl), if_neg (hne rfl), if_pos hnumber]

/-- A digit goes on with a word. -/
theorem endsWord_of_isDigit {c : Char} (h : c.isDigit) : endsWord c = false := by
  have hdigits : ∀ d < 10, endsWord (Nat.digitChar d) = false := by decide
  obtain ⟨d, hd, rfl⟩ := exists_digitChar h
  exact hdigits d hd

/-- A number goes on to its end. -/
theorem IsNumeral.isWord {w : Text} (h : IsNumeral w) : IsWord w := by
  -- Part by part, no character of a number ends a word: no sign, no digit, no point and no letter.
  have hrun {digits : Text} (isRun : IsRun Char.isDigit digits) :
      ∀ c ∈ digits, endsWord c = false := fun c hc => endsWord_of_isDigit (isRun.all c hc)
  have hall : ∀ c ∈ w, endsWord c = false := by
    rcases h with ⟨isSign, isInteger, isFraction, isExponent⟩
    simp only [List.forall_mem_append]
    refine ⟨?_, ?_, ?_, ?_⟩
    · rcases isSign with rfl | rfl
      · exact nofun
      · exact List.forall_mem_singleton.mpr rfl
    · cases isInteger with
      | zero => exact List.forall_mem_singleton.mpr rfl
      | digits isRun _ => exact hrun isRun
    · cases isFraction with
      | none => exact nofun
      | digits isRun => exact List.forall_mem_cons.mpr ⟨rfl, hrun isRun⟩
    · cases isExponent with
      | none => exact nofun
      | digits letter isSign isRun =>
        refine List.forall_mem_cons.mpr ⟨?_, List.forall_mem_append.mpr ⟨?_, hrun isRun⟩⟩
        · rcases letter with rfl | rfl <;> rfl
        · rcases isSign with rfl | rfl | rfl
          · exact nofun
          · exact List.forall_mem_singleton.mpr rfl
          · exact List.forall_mem_singleton.mpr rfl
  constructor
  · rintro rfl
    exact absurd (isNumber_iff.mpr h) (by decide)
  · intro c hc
    rw [hall c hc]
    rfl

/-- A token is a mark, a word or a string. -/
theorem Spelling.cases {token : Token} {w : Text} (h : Spelling token w) :
    (∃ c, w = [c] ∧ mark? c = some token) ∨
      (∃ value, token = .leaf value ∧ IsWord w ∧ ofWord? w = some value) ∨
      ∃ body units, token = .leaf (.string (textOfUnits? units)) ∧
        w = '\x22' :: (body ++ ['\x22']) ∧ IsBody body units := by
  cases h with
  | openArray | closeArray | openObject | closeObject | comma | colon =>
    exact .inl ⟨_, rfl, rfl⟩
  | null | true | false => exact .inr (.inl ⟨_, rfl, by decide, rfl⟩)
  | number isNumeral => exact .inr (.inl ⟨_, rfl, isNumeral.isWord, ofWord?_of_isNumeral isNumeral⟩)
  | string isBody hasText =>
    obtain rfl := (hasText_iff isBody.lt).mp hasText
    exact .inr (.inr ⟨_, _, rfl, rfl, isBody⟩)

/-! ### Between two tokens -/

section

variable {lexer behind : Lexer} {c : Char}

/-- White space between two tokens is passed. -/
theorem stepOutside_of_isSpace (h : isSpace c = true) :
    lexer.stepOutside c = { lexer with state := .outside } := by
  rw [Lexer.stepOutside, if_pos h]

/-- A quote begins a string. -/
theorem stepOutside_quote : lexer.stepOutside '\x22' = { lexer with state := .string [] } := rfl

/-- A mark is a token at once. -/
theorem stepOutside_of_mark? {token : Token} (h : mark? c = some token) :
    lexer.stepOutside c = lexer.emit token := by
  unfold mark? at h
  split at h <;> cases h <;> rfl

/-- Any other character begins a word. -/
theorem stepOutside_of_not_endsWord (h : endsWord c = false) :
    lexer.stepOutside c = { lexer with state := .word [c] } := by
  simp only [endsWord, Bool.or_eq_false_iff, decide_eq_false_iff_not,
    Option.isSome_eq_false_iff, Option.isNone_iff_eq_none] at h
  obtain ⟨⟨hspace, hquote⟩, hmark⟩ := h
  simp [Lexer.stepOutside, hspace, hquote, hmark]

/-- A character that ends a word is read as it is behind the word. -/
theorem step_of_endsWord (h : lexer.finishWord? = some behind) (outside : behind.state = .outside)
    (hc : endsWord c = true) : lexer.step c = some (behind.stepOutside c) := by
  rcases lexer with ⟨tokens, state⟩
  cases state with
  | word read => simp only [Lexer.step, if_pos hc, h, Option.map_some]
  | outside =>
    obtain rfl := Option.some.inj h
    rfl
  | string units | escape units | codeUnit units value missing =>
    obtain rfl := Option.some.inj h
    cases outside

end

/-! ### What is read is laid out -/

/-- What a lexer has read of the token that it is in. -/
inductive Inside : LexerState → Text → Prop
  | outside : Inside .outside []
  | word {read : Text} (isWord : IsWord read.reverse) : Inside (.word read) read.reverse
  | string {body : Text} {units : List Nat} (isBody : IsBody body units.reverse) :
      Inside (.string units) ('\x22' :: body)
  | escape {body : Text} {units : List Nat} (isBody : IsBody body units.reverse) :
      Inside (.escape units) ('\x22' :: (body ++ ['\x5c']))
  | codeUnit {body digits : Text} {units values : List Nat} {missing : Nat}
      (isBody : IsBody body units.reverse) (isHex : List.Forall₂ IsHexDigit digits values)
      (length_eq : digits.length + missing = 4) (pos : 0 < missing) :
      Inside (.codeUnit units (valueOf values) missing)
        ('\x22' :: (body ++ '\x5c' :: 'u' :: digits))

/-- A text led to a state of the lexer: it is the tokens so far, laid out, and behind them the
part of a token that has been read. -/
inductive Lexed : Lexer → Text → Prop
  | intro {lexer : Lexer} {front part : Text} (laidOut : LaidOut lexer.tokens.reverse front)
      (inside : Inside lexer.state part) : Lexed lexer (front ++ part)

section

variable {lexer next : Lexer} {front t w : Text} {c : Char}

/-- Between two tokens, the lexer has read nothing of the next one. -/
theorem LaidOut.lexed {tokens : List Token} (h : LaidOut tokens.reverse t) :
    Lexed ⟨tokens, .outside⟩ t := by
  have hlexed : Lexed ⟨tokens, .outside⟩ (t ++ []) := .intro h .outside
  rwa [List.append_nil] at hlexed

/-- A lexer that emits a token remembers it behind the others. -/
theorem LaidOut.lexed_emit {token : Token} (h : LaidOut lexer.tokens.reverse front)
    (spelling : Spelling token w) : Lexed (lexer.emit token) (front ++ w) := by
  refine LaidOut.lexed ?_
  rw [List.reverse_cons]
  exact .token h spelling

/-- A character between two tokens is white space, a mark, or the start of a token. -/
theorem LaidOut.lexed_stepOutside (h : LaidOut lexer.tokens.reverse front) (c : Char) :
    Lexed (lexer.stepOutside c) (front ++ [c]) := by
  cases hends : endsWord c with
  | false =>
    rw [stepOutside_of_not_endsWord hends]
    -- A character that ends no word begins one.
    have isWord : IsWord [c].reverse := ⟨List.cons_ne_nil c [], by simp [hends]⟩
    exact .intro h (.word isWord)
  | true =>
    simp only [endsWord, Bool.or_eq_true, decide_eq_true_eq, Option.isSome_iff_exists] at hends
    rcases hends with (hspace | rfl) | ⟨token, hmark⟩
    · rw [stepOutside_of_isSpace hspace]
      exact LaidOut.lexed (.space h hspace)
    · exact .intro h (.string .nil)
    · rw [stepOutside_of_mark? hmark]
      exact h.lexed_emit (spelling_of_mark? hmark)

/-- The end of a word makes it a token. -/
theorem LaidOut.finishWord? {tokens : List Token} {read : Text}
    (h : LaidOut tokens.reverse front)
    (hfinish : Lexer.finishWord? ⟨tokens, .word read⟩ = some next) :
    next.state = .outside ∧ LaidOut next.tokens.reverse (front ++ read.reverse) := by
  obtain ⟨value, hvalue, rfl⟩ := Option.map_eq_some_iff.mp hfinish
  refine ⟨rfl, ?_⟩
  rw [Lexer.emit, List.reverse_cons]
  exact .token h (spelling_of_ofWord? hvalue)

/-- A character is read on, behind what has been read before. -/
theorem Lexed.step (h : Lexed lexer t) (hstep : lexer.step c = some next) :
    Lexed next (t ++ [c]) := by
  rcases lexer with ⟨tokens, state⟩
  rcases h with ⟨laidOut, inside⟩
  rename_i front part
  rw [List.append_assoc]
  cases inside with
  | outside =>
    obtain rfl := Option.some.inj hstep
    exact laidOut.lexed_stepOutside c
  | @word read isWord =>
    simp only [Lexer.step] at hstep
    split at hstep
    · -- The word is complete, and the character is looked at as if it stood outside.
      obtain ⟨behind, hfinish, rfl⟩ := Option.map_eq_some_iff.mp hstep
      rw [← List.append_assoc]
      exact (laidOut.finishWord? hfinish).2.lexed_stepOutside c
    · next hends =>
      obtain rfl := Option.some.inj hstep
      have hword : IsWord (c :: read).reverse :=
        ⟨by simp, by simpa [hends, or_imp, forall_and] using isWord.all⟩
      rw [← List.reverse_cons]
      exact .intro laidOut (.word hword)
  | @string body units isBody =>
    simp only [Lexer.step] at hstep
    split at hstep
    · next hquote =>
      obtain rfl := Option.some.inj hstep
      rw [hquote]
      exact laidOut.lexed_emit (.string isBody ((hasText_iff isBody.lt).mpr rfl))
    · next hquote =>
      split at hstep
      · next hbackslash =>
        obtain rfl := Option.some.inj hstep
        rw [hbackslash]
        exact .intro laidOut (.escape isBody)
      · next hbackslash =>
        split at hstep
        · cases hstep
        · next hcontrol =>
          obtain rfl := Option.some.inj hstep
          -- A character that is no control character stands for itself.
          have hbody := isBody.plain (Char.not_lt.mp hcontrol) hquote hbackslash
          rw [← List.reverse_cons] at hbody
          exact .intro laidOut (.string hbody)
  | @escape body units isBody =>
    simp only [Lexer.step] at hstep
    rw [List.cons_append, List.append_assoc]
    split at hstep
    · next hletter =>
      obtain rfl := Option.some.inj hstep
      rw [hletter]
      -- The letter `u` has no meaning of its own. Four digits have to follow.
      have noDigits : List.Forall₂ IsHexDigit [] [] := .nil
      exact .intro laidOut (.codeUnit isBody noDigits rfl (by decide))
    · obtain ⟨char, hchar, rfl⟩ := Option.map_eq_some_iff.mp hstep
      have hbody := isBody.escape (escaped?_eq_some_iff.mp hchar)
      rw [← List.reverse_cons] at hbody
      exact .intro laidOut (.string hbody)
  | @codeUnit body digits units values missing isBody isHex length_eq pos =>
    obtain ⟨digit, hdigit, hnext⟩ := Option.map_eq_some_iff.mp hstep
    -- One digit more, which is the fourth or leaves others missing.
    have hdigits : List.Forall₂ IsHexDigit (digits ++ [c]) (values ++ [digit]) :=
      List.rel_append isHex (.cons (hexDigit?_eq_some_iff.mp hdigit) .nil)
    have hlength : (digits ++ [c]).length = digits.length + 1 := by simp
    rw [List.cons_append, List.append_assoc, List.cons_append, List.cons_append]
    simp only [← valueOf_append] at hnext
    split at hnext
    · subst hnext
      have hbody := isBody.codeUnit hdigits (by omega)
      rw [← List.reverse_cons] at hbody
      exact .intro laidOut (.string hbody)
    · subst hnext
      exact .intro laidOut (.codeUnit isBody hdigits (by omega) (by omega))

end

/-- What is read off a text is laid out in it. -/
theorem laidOut_of_tokens? {t : Text} {tokens : List Token} (h : Json.tokens? t = some tokens) :
    LaidOut tokens t := by
  obtain ⟨lexer, hread, hfinish⟩ := Option.bind_eq_some_iff.mp h
  have hstart : Lexed Lexer.start [] := LaidOut.lexed .nil
  have hlexed : Lexed lexer t := of_foldlM_eq_some hstart Lexed.step hread
  rcases lexer with ⟨read, state⟩
  rcases hlexed with ⟨laidOut, inside⟩
  cases inside with
  | outside =>
    obtain rfl := Option.some.inj hfinish
    rwa [List.append_nil]
  | word isWord =>
    -- A text may end in the middle of a word, which is then complete, but not inside a string.
    obtain ⟨behind, hword, hbehind⟩ := Option.bind_eq_some_iff.mp hfinish
    obtain ⟨outside, hlaid⟩ := laidOut.finishWord? hword
    rw [outside] at hbehind
    obtain rfl := Option.some.inj hbehind
    exact hlaid
  | string | escape | codeUnit => exact nomatch hfinish

/-- A number among tokens that are laid out is written as one. -/
theorem LaidOut.isNumeral {tokens : List Token} {t w : Text} (h : LaidOut tokens t)
    (hmem : Token.leaf (.number w) ∈ tokens) : IsNumeral w := by
  induction h with
  | nil => exact absurd hmem List.not_mem_nil
  | space _ _ ih => exact ih hmem
  | token _ spelling ih =>
    rcases List.mem_append.mp hmem with hfront | hlast
    · exact ih hfront
    · obtain rfl := List.mem_singleton.mp hlast
      cases spelling with
      | number isNumeral => exact isNumeral

/-! ### What is laid out is read -/

/-- A token that is no mark. -/
def IsLeaf (token : Token) : Prop := ∃ value, token = .leaf value

/-- Of two neighbours, one is a mark. -/
def Separate (first second : Token) : Prop := ¬ (IsLeaf first ∧ IsLeaf second)

/-- Of each two neighbours, one is a mark. -/
def AllSeparate (tokens : List Token) : Prop := tokens.IsChain Separate

/-- A lexer has read the tokens. It may still be in a word if the last one is a leaf. -/
structure HasRead (lexer : Lexer) (tokens : List Token) : Prop where
  finishWord? : lexer.finishWord? = some ⟨tokens.reverse, .outside⟩
  outside : (∀ last ∈ tokens.getLast?, ¬ IsLeaf last) → lexer.state = .outside

section

variable {tokens : List Token} {token : Token} {t w : Text} {lexer : Lexer}

/-- A lexer that is between two tokens has read those that it holds. -/
theorem hasRead_outside (tokens : List Token) : HasRead ⟨tokens.reverse, .outside⟩ tokens :=
  ⟨rfl, fun _ => rfl⟩

/-- Characters that do not end a word are collected, the last one first. -/
theorem foldlM_word (h : ∀ c ∈ w, endsWord c = false) (tokens : List Token) (read : Text) :
    w.foldlM Lexer.step ⟨tokens, .word read⟩ = some ⟨tokens, .word (w.reverse ++ read)⟩ := by
  induction w generalizing read with
  | nil => rfl
  | cons c w ih =>
    rw [List.forall_mem_cons] at h
    have hstep : Lexer.step ⟨tokens, .word read⟩ c = some ⟨tokens, .word (c :: read)⟩ := by
      simp [Lexer.step, h.1]
    rw [foldlM_cons_of_eq_some hstep, ih h.2, List.reverse_cons, List.append_assoc]
    rfl

/-- A word is collected as a whole, from its first character on. -/
theorem IsWord.foldlM_step (h : IsWord w) (tokens : List Token) :
    w.foldlM Lexer.step ⟨tokens, .outside⟩ = some ⟨tokens, .word w.reverse⟩ := by
  have hall : ∀ c ∈ w, endsWord c = false := by simpa using h.all
  cases w with
  | nil => exact absurd rfl h.ne_nil
  | cons c w =>
    rw [List.forall_mem_cons] at hall
    have hstep : Lexer.step ⟨tokens, .outside⟩ c = some ⟨tokens, .word [c]⟩ :=
      congrArg some (stepOutside_of_not_endsWord hall.1)
    rw [foldlM_cons_of_eq_some hstep, foldlM_word hall.2, List.reverse_cons]

/-- A token behind others is read. -/
theorem HasRead.foldlM_spelling (h : HasRead lexer tokens) (spelling : Spelling token w)
    (separate : ∀ last ∈ tokens.getLast?, Separate last token) :
    ∃ next, w.foldlM Lexer.step lexer = some next ∧ HasRead next (tokens ++ [token]) := by
  -- A token is a mark, a word or a string. Whatever was being read before ends in front of it.
  have hemit : Lexer.emit ⟨tokens.reverse, .outside⟩ token =
      ⟨(tokens ++ [token]).reverse, .outside⟩ := by
    rw [Lexer.emit, List.reverse_concat]
  rcases spelling.cases with ⟨c, rfl, hmark⟩ | ⟨value, rfl, isWord, hvalue⟩ |
    ⟨body, units, rfl, rfl, isBody⟩
  · have hstep := step_of_endsWord h.finishWord? rfl (c := c) (by simp [endsWord, hmark])
    rw [stepOutside_of_mark? hmark, hemit] at hstep
    exact ⟨_, foldlM_cons_of_eq_some hstep [], hasRead_outside _⟩
  · -- The token before it is no leaf, so the word begins outside the others.
    rcases lexer with ⟨read, state⟩
    obtain rfl : state = .outside :=
      h.outside fun last hlast hleaf => separate last hlast ⟨hleaf, value, rfl⟩
    obtain rfl : read = tokens.reverse := congrArg Lexer.tokens (Option.some.inj h.finishWord?)
    have hfinish : Lexer.finishWord? ⟨tokens.reverse, .word w.reverse⟩ =
        some ⟨(tokens ++ [Token.leaf value]).reverse, .outside⟩ := by
      simp only [Lexer.finishWord?, List.reverse_reverse, hvalue, Option.map_some]
      exact congrArg some hemit
    refine ⟨_, isWord.foldlM_step _, hfinish, fun hlast => ?_⟩
    exact absurd ⟨value, rfl⟩ (hlast (.leaf value) (by simp))
  · have hopen := step_of_endsWord h.finishWord? rfl (c := '\x22') rfl
    have hclose : Lexer.step ⟨tokens.reverse, .string units.reverse⟩ '\x22' =
        some ⟨(tokens ++ [Token.leaf (.string (textOfUnits? units))]).reverse, .outside⟩ := by
      rw [← hemit, ← List.reverse_reverse units, List.reverse_reverse units.reverse]
      rfl
    refine ⟨_, ?_, hasRead_outside _⟩
    rw [foldlM_cons_of_eq_some hopen, stepOutside_quote,
      foldlM_append_of_eq_some isBody.foldlM_step]
    exact foldlM_cons_of_eq_some hclose []

/-- Tokens that are laid out are read off the text. -/
theorem LaidOut.exists_hasRead (h : LaidOut tokens t) (separate : AllSeparate tokens) :
    ∃ lexer, t.foldlM Lexer.step Lexer.start = some lexer ∧ HasRead lexer tokens := by
  induction h with
  | nil => exact ⟨_, rfl, hasRead_outside []⟩
  | @space tokens t c _ isSpace ih =>
    -- White space ends a word as a token would, and it is not remembered.
    obtain ⟨lexer, hread, hasRead⟩ := ih separate
    have hstep := step_of_endsWord hasRead.finishWord? rfl (c := c) (by simp [endsWord, isSpace])
    rw [stepOutside_of_isSpace isSpace] at hstep
    refine ⟨_, ?_, hasRead_outside _⟩
    rw [foldlM_append_of_eq_some hread]
    exact foldlM_cons_of_eq_some hstep []
  | @token tokens t w token _ spelling ih =>
    obtain ⟨hfront, -, hlast⟩ := List.isChain_append.mp separate
    obtain ⟨lexer, hread, hasRead⟩ := ih hfront
    obtain ⟨next, hnext, hasRead'⟩ :=
      hasRead.foldlM_spelling spelling fun last hmem => hlast last hmem token rfl
    exact ⟨next, by rw [foldlM_append_of_eq_some hread, hnext], hasRead'⟩

/-- Tokens that are laid out are read off the text. What is left of a word at the end of the text is
made a token there. -/
theorem LaidOut.tokens?_eq (h : LaidOut tokens t) (separate : AllSeparate tokens) :
    Json.tokens? t = some tokens := by
  obtain ⟨lexer, hread, hasRead⟩ := h.exists_hasRead separate
  rw [Json.tokens?, hread, Option.bind_some, Lexer.finish?, hasRead.finishWord?]
  exact congrArg some (List.reverse_reverse tokens)

end

end AsmVariants.Proofs
