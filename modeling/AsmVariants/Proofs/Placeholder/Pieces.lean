import AsmVariants.Placeholder.Occurrence
import AsmVariants.Placeholder.Piece
import Mathlib.Data.List.Basic

/-!
# `AsmVariants.Proofs.Placeholder.Pieces`: occurrences are tokens

`Text.pieces` reads a text greedily, token by token. `Placeholder.occursIn` and
`Placeholder.replace` look for one placeholder only and test the character behind it. This module
shows that both see the same tokens:

* `occursIn_iff_mem_pieces`: a placeholder occurs in a text exactly if its token is one of the
  pieces.
* `replace_eq_flatMap_pieces`: replacing a placeholder is a map over the pieces. Every token of it
  becomes the value and every other piece stays.
* `pieces_append_of_startsWithDigit`: two texts are cut apart where the second begins with no digit,
  so occurrences and replacements are apart, too.
* `pieces_append_right` and what follows it: an end that can neither hold a token nor lengthen one
  makes no difference to the rest of a text.

`piecewise` is the induction behind both. It takes one piece at a time off the front of a text,
and each function of a text has one lemma for each kind of piece.
-/

set_option autoImplicit false

namespace AsmVariants.Proofs

open Placeholder (startsWithDigit)
open Text (pieces)

/-! ### Digits at the start of a text

A token ends where no digit follows, so this is what has to be known of any text that stands behind
one. -/

/-- An empty text starts with no digit. -/
@[simp] theorem startsWithDigit_nil : startsWithDigit [] = false := rfl

/-- Whether a text starts with a digit is told by its first character. -/
@[simp] theorem startsWithDigit_cons (c : Char) (t : Text) :
    startsWithDigit (c :: t) = c.isDigit := rfl

/-- The first character decides, so what follows a text that is not empty does not matter. -/
theorem startsWithDigit_append (t rest : Text) :
    startsWithDigit (t ++ rest) = if t = [] then startsWithDigit rest else startsWithDigit t := by
  cases t with
  | nil => simp
  | cons c t => simp

/-- A token starts with its percent sign. -/
@[simp] theorem startsWithDigit_token_append (p : Placeholder) (rest : Text) :
    startsWithDigit (p.token ++ rest) = false := rfl

/-- The digits at the front end where the text goes on with no digit. -/
theorem takeWhile_isDigit_append {digits rest : Text} (hd : ∀ c ∈ digits, c.isDigit)
    (hr : startsWithDigit rest = false) :
    (digits ++ rest).takeWhile Char.isDigit = digits ∧
      (digits ++ rest).dropWhile Char.isDigit = rest := by
  rw [List.takeWhile_append_of_pos hd, List.dropWhile_append_of_pos hd]
  cases rest with
  | nil => simp
  | cons c rest =>
    rw [startsWithDigit_cons] at hr
    simp [hr]

/-- No digit is left behind the digits at the front. -/
theorem startsWithDigit_dropWhile (t : Text) :
    startsWithDigit (t.dropWhile Char.isDigit) = false := by
  induction t with
  | nil => rfl
  | cons c t ih =>
    rw [List.dropWhile_cons]
    split
    · exact ih
    · next h => simpa using h

/-- A token holds no percent sign but its first character. -/
theorem percent_notMem_digits (p : Placeholder) : '%' ∉ p.digits :=
  fun h => absurd (p.isDigit_of_mem h) (by decide)

/-! ### One piece at a time

A text is empty, or it begins with a token, with a percent sign that begins none, or with any other
character. `piecewise` is the induction with these four cases. -/

/-- A text begins with a token that no digit follows. -/
theorem pieces_token_append (p : Placeholder) {rest : Text} (h : startsWithDigit rest = false) :
    pieces (p.token ++ rest) = .token p :: pieces rest := by
  obtain ⟨htake, hdrop⟩ := takeWhile_isDigit_append (fun c => p.isDigit_of_mem) h
  have hp : Placeholder.ofDigits? p.digits = some p :=
    Placeholder.ofDigits?_eq_some_iff.mpr rfl
  show pieces ('%' :: (p.digits ++ rest)) = _
  rw [pieces, if_pos rfl, htake, hdrop, hp]

/-- A percent sign before no digit is a piece of its own. -/
theorem pieces_percent_cons {rest : Text} (h : startsWithDigit rest = false) :
    pieces ('%' :: rest) = .plain '%' :: pieces rest := by
  have hnil : ∀ c ∈ ([] : Text), c.isDigit := fun c hc => absurd hc List.not_mem_nil
  have htake : rest.takeWhile Char.isDigit = [] := (takeWhile_isDigit_append hnil h).1
  rw [pieces, if_pos rfl, htake]
  rfl

/-- A character other than the percent sign is a piece of its own. -/
theorem pieces_cons {c : Char} (rest : Text) (h : c ≠ '%') :
    pieces (c :: rest) = .plain c :: pieces rest := by
  rw [pieces, if_neg h]

/-- A text is empty, or begins with a token that no digit follows, or with a percent sign that no
digit follows, or with another character. -/
@[elab_as_elim]
theorem piecewise {motive : Text → Prop} (t : Text) (nil : motive [])
    (token : ∀ (p : Placeholder) (rest : Text), startsWithDigit rest = false →
      motive rest → motive (p.token ++ rest))
    (percent : ∀ rest : Text, startsWithDigit rest = false → motive rest → motive ('%' :: rest))
    (plain : ∀ (c : Char) (rest : Text), c ≠ '%' → motive rest → motive (c :: rest)) :
    motive t := by
  fun_induction pieces t with
  | case1 => exact nil
  | case2 cs p h ih =>
    -- The name is all the digits behind the percent sign, so none is left in front of the rest.
    have hp : p.digits = cs.takeWhile Char.isDigit :=
      (Placeholder.ofDigits?_eq_some_iff.mp h).symm
    have hcs : p.digits ++ cs.dropWhile Char.isDigit = cs := by
      rw [hp, List.takeWhile_append_dropWhile]
    have := token p _ (startsWithDigit_dropWhile cs) ih
    rwa [show p.token ++ cs.dropWhile Char.isDigit = '%' :: cs from congrArg _ hcs] at this
  | case3 cs h ih =>
    refine percent cs ?_ ih
    -- A digit here would be the start of a name.
    cases cs with
    | nil => rfl
    | cons c cs =>
      by_contra hc
      rw [startsWithDigit_cons, Bool.not_eq_false] at hc
      simp [Placeholder.ofDigits?, hc] at h
  | case4 c cs h ih => exact plain c cs h ih

/-! ### Where a placeholder opens

A placeholder opens at the front of a text if its own token stands there. The token of another
placeholder that begins in the same way is longer, and it does not count. -/

/-- What follows an occurrence at the start of a text begins with no digit. -/
theorem textAfter?_eq_some_iff {p : Placeholder} {t rest : Text} :
    p.textAfter? t = some rest ↔ p.token ++ rest = t ∧ startsWithDigit rest = false := by
  rw [Placeholder.textAfter?, Option.filter_eq_some_iff, List.isPrefixOf?_eq_some_iff_append_eq,
    Bool.not_eq_true']

/-- A token opens with the placeholder that it names, and with no other. -/
theorem opens_token_append (p q : Placeholder) {rest : Text} (h : startsWithDigit rest = false) :
    p.opens (q.token ++ rest) = decide (q = p) := by
  rw [Bool.eq_iff_iff, decide_eq_true_iff, Placeholder.opens, Option.isSome_iff_exists]
  constructor
  · rintro ⟨after, hafter⟩
    obtain ⟨heq, hdigit⟩ := textAfter?_eq_some_iff.mp hafter
    -- The same text has the same first piece.
    have hsame := congrArg pieces heq
    rw [pieces_token_append p hdigit, pieces_token_append q h] at hsame
    exact (Piece.token.inj (List.cons.inj hsame).1).symm
  · rintro rfl
    exact ⟨rest, textAfter?_eq_some_iff.mpr ⟨rfl, h⟩⟩

/-- No placeholder opens at a percent sign that no digit follows. -/
theorem opens_percent_cons (p : Placeholder) {rest : Text} (h : startsWithDigit rest = false) :
    p.opens ('%' :: rest) = false := by
  rw [Placeholder.opens, Option.isSome_eq_false_iff, Option.isNone_iff_eq_none,
    Option.eq_none_iff_forall_ne_some]
  intro after hafter
  obtain ⟨heq, hdigit⟩ := textAfter?_eq_some_iff.mp hafter
  have hsame := congrArg pieces heq
  rw [pieces_token_append p hdigit, pieces_percent_cons h] at hsame
  exact nomatch (List.cons.inj hsame).1

/-- No placeholder opens at a character other than the percent sign. -/
theorem opens_cons (p : Placeholder) {c : Char} (rest : Text) (h : c ≠ '%') :
    p.opens (c :: rest) = false := by
  rw [Placeholder.opens, Option.isSome_eq_false_iff, Option.isNone_iff_eq_none,
    Option.eq_none_iff_forall_ne_some]
  intro after hafter
  exact h (List.cons.inj (textAfter?_eq_some_iff.mp hafter).1).1.symm

/-! ### Text without a percent sign

Such a text has no token, and none begins in it. So it can be cut off in front of any other text. -/

/-- Text without a percent sign is cut into its characters. -/
theorem pieces_append {t : Text} (rest : Text) (h : '%' ∉ t) :
    pieces (t ++ rest) = t.map .plain ++ pieces rest := by
  induction t with
  | nil => rfl
  | cons c t ih =>
    rw [List.mem_cons, not_or] at h
    rw [List.cons_append, pieces_cons _ (Ne.symm h.1), ih h.2]
    rfl

/-- Text without a percent sign holds no occurrence. -/
theorem occursIn_append {t : Text} (p : Placeholder) (rest : Text) (h : '%' ∉ t) :
    p.occursIn (t ++ rest) = p.occursIn rest := by
  induction t with
  | nil => rfl
  | cons c t ih =>
    rw [List.mem_cons, not_or] at h
    rw [List.cons_append, Placeholder.occursIn, opens_cons p _ (Ne.symm h.1), Bool.false_or, ih h.2]

/-- Text without a percent sign is kept by a replacement. -/
theorem replace_append {t : Text} (p : Placeholder) (value rest : Text) (h : '%' ∉ t) :
    p.replace value (t ++ rest) = t ++ p.replace value rest := by
  induction t with
  | nil => rfl
  | cons c t ih =>
    rw [List.mem_cons, not_or] at h
    rw [Placeholder.replace, List.cons_append, Placeholder.replaceFrom,
      opens_cons p _ (Ne.symm h.1), if_neg Bool.false_ne_true]
    exact congrArg (c :: ·) (ih h.2)

/-! ### Occurrences -/

/-- A placeholder occurs in a token if the token names it. -/
theorem occursIn_token_append (p q : Placeholder) {rest : Text}
    (h : startsWithDigit rest = false) :
    p.occursIn (q.token ++ rest) = (decide (q = p) || p.occursIn rest) := by
  have hopen : p.opens ('%' :: (q.digits ++ rest)) = decide (q = p) := opens_token_append p q h
  -- The walk goes on inside the token, and there the digits are passed over.
  show p.occursIn ('%' :: (q.digits ++ rest)) = _
  rw [Placeholder.occursIn, hopen, occursIn_append p rest (percent_notMem_digits q)]

/-- A placeholder occurs in a text exactly if its token is one of the pieces. -/
theorem occursIn_iff_mem_pieces (p : Placeholder) (t : Text) :
    p.occursIn t ↔ .token p ∈ pieces t := by
  induction t using piecewise with
  | nil => simp [Placeholder.occursIn, pieces]
  | token q rest h ih =>
    rw [occursIn_token_append p q h, pieces_token_append q h, Bool.or_eq_true,
      decide_eq_true_iff, List.mem_cons, Piece.token.injEq, eq_comm, ih]
  | percent rest h ih =>
    rw [Placeholder.occursIn, opens_percent_cons p h, pieces_percent_cons h]
    simp [ih]
  | plain c rest h ih =>
    rw [Placeholder.occursIn, opens_cons p rest h, pieces_cons rest h]
    simp [ih]

/-- The placeholders whose tokens stand in a text are those that occur in it. -/
theorem mem_tokens_iff (p : Placeholder) (t : Text) : p ∈ t.tokens ↔ p.occursIn t := by
  rw [occursIn_iff_mem_pieces, Text.tokens, List.mem_filterMap]
  constructor
  · rintro ⟨piece, hmem, hp⟩
    cases piece with
    | token q =>
      cases hp
      exact hmem
    | plain c => exact nomatch hp
  · intro hmem
    exact ⟨.token p, hmem, rfl⟩

/-! ### Replacement -/

/-- Where the token at the start names the placeholder, the value takes its place. -/
theorem replace_token_append (p q : Placeholder) (value : Text) {rest : Text}
    (h : startsWithDigit rest = false) :
    p.replace value (q.token ++ rest) =
      (if q = p then value else q.token) ++ p.replace value rest := by
  have hopen : p.opens ('%' :: (q.digits ++ rest)) = decide (q = p) := opens_token_append p q h
  show p.replaceFrom value 0 ('%' :: (q.digits ++ rest)) = _
  rw [Placeholder.replaceFrom, hopen]
  by_cases hq : q = p
  · -- The digits of the occurrence are skipped.
    subst hq
    rw [if_pos (decide_eq_true rfl), if_pos rfl, Placeholder.replaceFrom_eq_drop, List.drop_left]
    rfl
  · -- The digits of another token are copied one by one.
    rw [if_neg (by simpa using hq), if_neg hq]
    exact congrArg ('%' :: ·) (replace_append p value rest (percent_notMem_digits q))

/-- A percent sign that no digit follows is kept by a replacement. -/
theorem replace_percent_cons (p : Placeholder) (value : Text) {rest : Text}
    (h : startsWithDigit rest = false) :
    p.replace value ('%' :: rest) = '%' :: p.replace value rest := by
  rw [Placeholder.replace, Placeholder.replaceFrom, opens_percent_cons p h,
    if_neg Bool.false_ne_true]
  rfl

/-- Replacing a placeholder is a map over the pieces of the text: its tokens become the value and
all else stays. -/
theorem replace_eq_flatMap_pieces (p : Placeholder) (value t : Text) :
    p.replace value t =
      (pieces t).flatMap fun piece => if piece = .token p then value else piece.toText := by
  induction t using piecewise with
  | nil => simp [Placeholder.replace, Placeholder.replaceFrom, pieces]
  | token q rest h ih =>
    rw [replace_token_append p q value h, pieces_token_append q h, List.flatMap_cons, ih]
    simp [Piece.toText]
  | percent rest h ih =>
    -- A percent sign that begins no token is a plain piece.
    rw [replace_percent_cons p value h, pieces_percent_cons h, List.flatMap_cons, ih]
    simp [Piece.toText]
  | plain c rest h ih =>
    have hc : '%' ∉ [c] := by simpa using Ne.symm h
    have hsplit := replace_append p value rest hc
    rw [List.singleton_append] at hsplit
    rw [hsplit, pieces_cons rest h, List.flatMap_cons, ih]
    simp [Piece.toText]

/-- A text without an occurrence is kept as it is. -/
theorem replace_of_not_occursIn {p : Placeholder} {t : Text} (value : Text)
    (h : p.occursIn t = false) : p.replace value t = t := by
  have hmem : .token p ∉ pieces t := by
    rw [← occursIn_iff_mem_pieces, h]
    exact Bool.false_ne_true
  have hkeep : ∀ piece ∈ pieces t,
      (if piece = .token p then value else piece.toText) = piece.toText := by
    intro piece hpiece
    rw [if_neg]
    rintro rfl
    exact hmem hpiece
  rw [replace_eq_flatMap_pieces, List.flatMap_congr hkeep, Text.flatten_pieces]

/-- A replacement brings in characters of the value only. -/
theorem mem_of_mem_replace {p : Placeholder} {value t : Text} {c : Char}
    (h : c ∈ p.replace value t) : c ∈ value ∨ c ∈ t := by
  rw [replace_eq_flatMap_pieces, List.mem_flatMap] at h
  obtain ⟨piece, hpiece, hc⟩ := h
  split at hc
  · exact Or.inl hc
  · rw [← Text.flatten_pieces t]
    exact Or.inr (List.mem_flatMap.mpr ⟨piece, hpiece, hc⟩)

/-! ### What follows the occurrences -/

/-- Where the placeholder does not open, nothing follows an occurrence. -/
theorem textsAfter_cons {p : Placeholder} {c : Char} {rest : Text}
    (h : p.opens (c :: rest) = false) : p.textsAfter (c :: rest) = p.textsAfter rest := by
  rw [Placeholder.opens, Option.isSome_eq_false_iff, Option.isNone_iff_eq_none] at h
  rw [Placeholder.textsAfter, h]

/-- Text without a percent sign holds no occurrence that anything could follow. -/
theorem textsAfter_append {t : Text} (p : Placeholder) (rest : Text) (h : '%' ∉ t) :
    p.textsAfter (t ++ rest) = p.textsAfter rest := by
  induction t with
  | nil => rfl
  | cons c t ih =>
    rw [List.mem_cons, not_or] at h
    rw [List.cons_append, textsAfter_cons (opens_cons p _ (Ne.symm h.1)), ih h.2]

/-- Where the token at the start names the placeholder, the rest of the text follows it. -/
theorem textsAfter_token_append (p q : Placeholder) {rest : Text}
    (h : startsWithDigit rest = false) :
    p.textsAfter (q.token ++ rest) = (if q = p then [rest] else []) ++ p.textsAfter rest := by
  have hopen : p.opens ('%' :: (q.digits ++ rest)) = decide (q = p) := opens_token_append p q h
  show p.textsAfter ('%' :: (q.digits ++ rest)) = _
  by_cases hq : q = p
  · subst hq
    have hafter : q.textAfter? ('%' :: (q.digits ++ rest)) = some rest :=
      textAfter?_eq_some_iff.mpr ⟨rfl, h⟩
    rw [Placeholder.textsAfter, hafter, if_pos rfl]
    -- The walk goes on inside the token, and there the digits are passed over.
    exact congrArg (rest :: ·) (textsAfter_append q rest (percent_notMem_digits q))
  · rw [decide_eq_false hq] at hopen
    rw [textsAfter_cons hopen, textsAfter_append p rest (percent_notMem_digits q), if_neg hq,
      List.nil_append]

/-! ### The end of a text

Two texts with a token across the cut between them are not cut into the pieces of both. Behind text
that begins with no digit this does not happen, since a token is never lengthened from there. -/

section

variable {tail : Text} (hpercent : '%' ∉ tail) (hdigit : startsWithDigit tail = false)

include hdigit in
/-- Where a text goes on with no digit, it still does with an end behind it that does not begin
with one. -/
theorem startsWithDigit_append_right {rest : Text} (h : startsWithDigit rest = false) :
    startsWithDigit (rest ++ tail) = false := by
  rw [startsWithDigit_append]
  split
  · exact hdigit
  · exact h

include hdigit in
/-- An end that does not begin with a digit lengthens no token, so it is cut on its own. -/
theorem pieces_append_of_startsWithDigit (t : Text) :
    pieces (t ++ tail) = pieces t ++ pieces tail := by
  induction t using piecewise with
  | nil => simp [pieces]
  | token q rest h ih =>
    rw [List.append_assoc, pieces_token_append q (startsWithDigit_append_right hdigit h), ih,
      pieces_token_append q h, List.cons_append]
  | percent rest h ih =>
    rw [List.cons_append, pieces_percent_cons (startsWithDigit_append_right hdigit h), ih,
      pieces_percent_cons h, List.cons_append]
  | plain c rest h ih =>
    rw [List.cons_append, pieces_cons _ h, ih, pieces_cons rest h, List.cons_append]

include hdigit in
/-- Such an end adds its own occurrences. -/
theorem occursIn_append_of_startsWithDigit (p : Placeholder) (t : Text) :
    p.occursIn (t ++ tail) = (p.occursIn t || p.occursIn tail) := by
  rw [Bool.eq_iff_iff, Bool.or_eq_true, occursIn_iff_mem_pieces, occursIn_iff_mem_pieces,
    occursIn_iff_mem_pieces, pieces_append_of_startsWithDigit hdigit, List.mem_append]

include hdigit in
/-- A replacement does its work in such an end and in front of it. -/
theorem replace_append_of_startsWithDigit (p : Placeholder) (value t : Text) :
    p.replace value (t ++ tail) = p.replace value t ++ p.replace value tail := by
  rw [replace_eq_flatMap_pieces, pieces_append_of_startsWithDigit hdigit, List.flatMap_append,
    ← replace_eq_flatMap_pieces, ← replace_eq_flatMap_pieces]

include hpercent hdigit

/-- An end that can neither hold a token nor lengthen one is cut into its characters. -/
theorem pieces_append_right (t : Text) : pieces (t ++ tail) = pieces t ++ tail.map .plain := by
  have hkeep : pieces (tail ++ []) = tail.map .plain ++ pieces [] := pieces_append [] hpercent
  have hnil : pieces [] = [] := by rw [pieces]
  rw [List.append_nil, hnil, List.append_nil] at hkeep
  rw [pieces_append_of_startsWithDigit hdigit, hkeep]

/-- Such an end has no occurrence and takes none away. -/
theorem occursIn_append_right (p : Placeholder) (t : Text) :
    p.occursIn (t ++ tail) = p.occursIn t := by
  have hnone : p.occursIn tail = false := by
    rw [← List.append_nil tail, occursIn_append p [] hpercent]
    rfl
  rw [occursIn_append_of_startsWithDigit hdigit, hnone, Bool.or_false]

/-- Text without a percent sign or a digit at its start adds no token, and lengthens none. -/
theorem tokens_append_right (t : Text) : (t ++ tail).tokens = t.tokens := by
  have hplain : (tail.map Piece.plain).filterMap Piece.placeholder? = [] := by
    simp [List.filterMap_map, Piece.placeholder?, Function.comp_def]
  rw [Text.tokens, pieces_append_right hpercent hdigit, List.filterMap_append, hplain,
    List.append_nil]
  rfl

/-- A replacement stops short of such an end. -/
theorem replace_append_right (p : Placeholder) (value t : Text) :
    p.replace value (t ++ tail) = p.replace value t ++ tail := by
  have hkeep : p.replace value (tail ++ []) = tail ++ p.replace value [] :=
    replace_append p value [] hpercent
  have hnil : p.replace value [] = [] := rfl
  rw [List.append_nil, hnil, List.append_nil] at hkeep
  rw [replace_append_of_startsWithDigit hdigit, hkeep]

/-- What follows an occurrence goes on to such an end. -/
theorem textsAfter_append_right (p : Placeholder) (t : Text) :
    p.textsAfter (t ++ tail) = (p.textsAfter t).map (· ++ tail) := by
  induction t using piecewise with
  | nil =>
    have hnone := textsAfter_append p [] hpercent
    rw [List.append_nil] at hnone
    exact hnone
  | token q rest h ih =>
    rw [List.append_assoc, textsAfter_token_append p q (startsWithDigit_append_right hdigit h), ih,
      textsAfter_token_append p q h, List.map_append]
    split <;> rfl
  | percent rest h ih =>
    have hopens := opens_percent_cons p (startsWithDigit_append_right hdigit h)
    rw [List.cons_append, textsAfter_cons hopens, ih, textsAfter_cons (opens_percent_cons p h)]
  | plain c rest h ih =>
    rw [List.cons_append, textsAfter_cons (opens_cons p _ h), ih,
      textsAfter_cons (opens_cons p rest h)]

end

end AsmVariants.Proofs
