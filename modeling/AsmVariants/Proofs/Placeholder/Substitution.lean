import AsmVariants.Proofs.Placeholder.Pieces
import Mathlib.Data.List.Chain
import Mathlib.Data.List.TakeWhile

/-!
# `AsmVariants.Proofs.Placeholder.Substitution`: all placeholders of a text at once

`substitute` puts values in the place of many placeholders at once, by one map over the pieces of
a text. Replacing them one after another reads the text again each time, and a value that was put
in can change what the next reading finds: it can hold a token, and its digits can lengthen a
token in front of it.

Two conditions rule this out. No value holds a percent sign, and no value that begins with a digit
comes directly behind a percent sign and digits (`StandsBehindRun`). Under them the pieces of a
text with values in it are the pieces of the values and the other pieces of the text
(`pieces_substitute`). It follows that a placeholder that has no value yet occurs where it did
(`occursIn_substitute`), and that replacing it adds its value to the others
(`replace_substitute`).

The second condition is used along the pieces, as the chain `Guarded`. A value may be empty, and
then the piece behind it moves up. So the induction `startsWithDigit_flatMap_render` looks past
empty values: what they leave out is a token, which again guards the piece behind it.
-/

set_option autoImplicit false

namespace AsmVariants.Proofs

open Placeholder (startsWithDigit)
open Text (pieces)

/-- The values that some placeholders have. -/
abbrev Values := Placeholder → Option Text

/-- What stands for a piece: the value of its placeholder if there is one, or else the piece. -/
def render (values : Values) : Piece → Text
  | .token p => (values p).getD p.token
  | .plain c => [c]

/-- The text with the value of each placeholder in the place of its tokens, all at once. -/
def substitute (values : Values) (t : Text) : Text := (pieces t).flatMap (render values)

/-- The pieces of what stands for a piece. -/
def renderPieces (values : Values) : Piece → List Piece
  | .token p => (values p).elim [.token p] (List.map .plain)
  | .plain c => [.plain c]

/-- Whether a digit behind the piece would become part of a token. -/
def opensRun : Piece → Bool
  | .token _ => true
  | .plain c => c == '%'

/-- Behind a piece that a digit would lengthen, no value begins with a digit. -/
def Guarded (values : Values) : List Piece → Prop :=
  List.IsChain fun piece next => opensRun piece → startsWithDigit (render values next) = false

/-! ### The pieces of a text with values

A value can be empty, and then the pieces on both sides of it become neighbours. `Guarded` is about
all pieces in a row for this reason: the piece that moves up is guarded by the one that is gone. -/

/-- Only a value can leave nothing of a piece, and it stands for a token. -/
theorem opensRun_of_render_eq_nil {values : Values} {piece : Piece}
    (h : render values piece = []) : opensRun piece = true := by
  cases piece with
  | token p => rfl
  | plain c => exact nomatch h

/-- No digit comes behind a piece that it would lengthen. -/
theorem startsWithDigit_flatMap_render {values : Values} {piece : Piece} {rest : List Piece}
    (h : Guarded values (piece :: rest)) (hpiece : opensRun piece) :
    startsWithDigit (rest.flatMap (render values)) = false := by
  induction rest generalizing piece with
  | nil => rfl
  | cons next rest ih =>
    obtain ⟨hnext, hrest⟩ := List.isChain_cons_cons.mp h
    rw [List.flatMap_cons, startsWithDigit_append]
    split
    · -- The next piece leaves nothing, so it was a token and guards what moves up.
      next hempty => exact ih hrest (opensRun_of_render_eq_nil hempty)
    · exact hnext hpiece

/-- What stands for guarded pieces is cut into the pieces of what stands for each. -/
theorem pieces_flatMap_render {values : Values} {parts : List Piece}
    (hvalues : ∀ p value, values p = some value → '%' ∉ value) (h : Guarded values parts) :
    pieces (parts.flatMap (render values)) = parts.flatMap (renderPieces values) := by
  induction parts with
  | nil => simp [pieces]
  | cons piece rest ih =>
    have hrest := ih h.tail
    rw [List.flatMap_cons, List.flatMap_cons, ← hrest]
    cases piece with
    | token p =>
      cases hp : values p with
      | none =>
        simp only [render, renderPieces, hp, Option.getD_none, Option.elim_none]
        -- No digit follows a token that stays.
        exact pieces_token_append p (startsWithDigit_flatMap_render h rfl)
      | some value =>
        simp only [render, renderPieces, hp, Option.getD_some, Option.elim_some]
        exact pieces_append _ (hvalues p value hp)
    | plain c =>
      simp only [render, renderPieces, List.singleton_append]
      by_cases hc : c = '%'
      · subst hc
        exact pieces_percent_cons (startsWithDigit_flatMap_render h rfl)
      · exact pieces_cons _ hc

/-! ### Behind a percent sign and digits

`Guarded` is about the pieces of a text. The condition on a template has to be checked on its lines,
so it is put in terms of the text: behind a percent sign and digits, a value that begins with a
digit would make a longer token. -/

/-- An occurrence of the placeholder stands directly behind a percent sign and any number of
digits. -/
def StandsBehindRun (p : Placeholder) (t : Text) : Prop :=
  ∃ before digits after : Text, (∀ c ∈ digits, c.isDigit) ∧ startsWithDigit after = false ∧
    t = before ++ '%' :: (digits ++ (p.token ++ after))

/-- The search for such an occurrence: behind some percent sign, past the digits. -/
def standsBehindRun (p : Placeholder) : Text → Bool
  | [] => false
  | c :: cs => c == '%' && p.opens (cs.dropWhile Char.isDigit) || standsBehindRun p cs

/-- An occurrence behind a percent sign and digits is still one when text is put in front. -/
theorem standsBehindRun_append_left {p : Placeholder} (before : Text) {t : Text}
    (h : standsBehindRun p t) : standsBehindRun p (before ++ t) := by
  induction before with
  | nil => exact h
  | cons c before ih =>
    rw [List.cons_append, standsBehindRun, ih, Bool.or_true]

/-- The search finds what it is meant to find. -/
theorem standsBehindRun_iff {p : Placeholder} {t : Text} :
    standsBehindRun p t ↔ StandsBehindRun p t := by
  constructor
  · intro h
    induction t with
    | nil => exact nomatch h
    | cons c cs ih =>
      rw [standsBehindRun, Bool.or_eq_true, Bool.and_eq_true] at h
      rcases h with ⟨hc, hopens⟩ | h
      · obtain ⟨after, hafter⟩ := Option.isSome_iff_exists.mp hopens
        obtain ⟨hrest, hdigit⟩ := textAfter?_eq_some_iff.mp hafter
        refine ⟨[], cs.takeWhile Char.isDigit, after, fun d hd => List.mem_takeWhile_imp hd,
          hdigit, ?_⟩
        rw [hrest, List.takeWhile_append_dropWhile, eq_of_beq hc]
        rfl
      · obtain ⟨before, digits, after, hdigits, hdigit, rfl⟩ := ih h
        exact ⟨c :: before, digits, after, hdigits, hdigit, rfl⟩
  · rintro ⟨before, digits, after, hdigits, hdigit, rfl⟩
    apply standsBehindRun_append_left
    -- The token begins with a percent sign, so the search stops in front of it.
    have hdrop := (takeWhile_isDigit_append hdigits (startsWithDigit_token_append p after)).2
    rw [standsBehindRun, hdrop, opens_token_append p p hdigit]
    simp

/-- Whether a placeholder stands so is told by the search. -/
instance (p : Placeholder) (t : Text) : Decidable (StandsBehindRun p t) :=
  decidable_of_iff (standsBehindRun p t) standsBehindRun_iff

/-- The first piece of a text that begins with no digit is guarded, if the placeholders with values
that begin with digits do not open there. -/
theorem startsWithDigit_render_head {values : Values} {t : Text}
    (ht : startsWithDigit t = false)
    (h : ∀ p value, values p = some value → startsWithDigit value → p.opens t = false) :
    ∀ piece ∈ (pieces t).head?, startsWithDigit (render values piece) = false := by
  intro piece hpiece
  induction t using piecewise with
  | nil => simp [pieces] at hpiece
  | token p rest hrest =>
    rw [pieces_token_append p hrest] at hpiece
    obtain rfl : Piece.token p = piece := by simpa using hpiece
    cases hp : values p with
    | none =>
      rw [render, hp]
      rfl
    | some value =>
      -- Its placeholder opens here, so its value begins with no digit.
      have hopens := h p value hp
      rw [opens_token_append p p hrest, decide_eq_true rfl] at hopens
      rw [render, hp]
      simpa using hopens
  | percent rest hrest =>
    rw [pieces_percent_cons hrest] at hpiece
    obtain rfl : Piece.plain '%' = piece := by simpa using hpiece
    rfl
  | plain c rest hc =>
    rw [pieces_cons rest hc] at hpiece
    obtain rfl : Piece.plain c = piece := by simpa using hpiece
    exact ht

/-- Where the placeholder opens behind a percent sign and digits, it stands behind them. -/
theorem standsBehindRun_of_opens {p : Placeholder} {digits rest : Text}
    (hdigits : ∀ c ∈ digits, c.isDigit) (h : p.opens rest) :
    StandsBehindRun p ('%' :: (digits ++ rest)) := by
  obtain ⟨after, hafter⟩ := Option.isSome_iff_exists.mp h
  obtain ⟨rfl, hdigit⟩ := textAfter?_eq_some_iff.mp hafter
  exact ⟨[], digits, after, hdigits, hdigit, rfl⟩

/-- What stands behind a run in the rest of a text does so in the text. -/
theorem StandsBehindRun.append_left {p : Placeholder} {t : Text} (h : StandsBehindRun p t)
    (before : Text) : StandsBehindRun p (before ++ t) :=
  standsBehindRun_iff.mp (standsBehindRun_append_left before (standsBehindRun_iff.mpr h))

/-- The pieces of a text are guarded, if no placeholder with a value that begins with a digit stands
directly behind a percent sign and digits. -/
theorem guarded_pieces {values : Values} {t : Text}
    (h : ∀ p value, values p = some value → startsWithDigit value → ¬ StandsBehindRun p t) :
    Guarded values (pieces t) := by
  -- Behind a run of digits, no placeholder opens whose value would lengthen it.
  have hguard : ∀ {digits rest : Text}, (∀ c ∈ digits, c.isDigit) →
      startsWithDigit rest = false →
      (∀ p value, values p = some value → startsWithDigit value →
        ¬ StandsBehindRun p ('%' :: (digits ++ rest))) →
      ∀ piece ∈ (pieces rest).head?, startsWithDigit (render values piece) = false := by
    intro digits rest hdigits hrest hstands
    refine startsWithDigit_render_head hrest fun p value hp hdigit => ?_
    by_contra hopens
    rw [Bool.not_eq_false] at hopens
    exact hstands p value hp hdigit (standsBehindRun_of_opens hdigits hopens)
  induction t using piecewise with
  | nil =>
    rw [pieces]
    exact List.isChain_nil
  | token q rest hrest ih =>
    rw [pieces_token_append q hrest]
    refine List.isChain_cons.mpr ⟨fun piece hpiece _ => ?_, ih fun p value hp hdigit hstands => ?_⟩
    · exact hguard (fun c => q.isDigit_of_mem) hrest h piece hpiece
    · exact h p value hp hdigit (hstands.append_left q.token)
  | percent rest hrest ih =>
    rw [pieces_percent_cons hrest]
    refine List.isChain_cons.mpr ⟨fun piece hpiece _ => ?_, ih fun p value hp hdigit hstands => ?_⟩
    · have hnil : ∀ c ∈ ([] : Text), c.isDigit := fun c hc => absurd hc List.not_mem_nil
      exact hguard hnil hrest h piece hpiece
    · exact h p value hp hdigit (hstands.append_left ['%'])
  | plain c rest hc ih =>
    -- No digit lengthens a character other than the percent sign.
    rw [pieces_cons rest hc]
    refine List.isChain_cons.mpr ⟨fun piece _ hopens => ?_, ih fun p value hp hdigit hstands => ?_⟩
    · exact absurd (eq_of_beq hopens) hc
    · exact h p value hp hdigit (hstands.append_left [c])

/-! ### One more value

Values that fit can be put in one after another or all at once. That is the reason why the passes of
an expansion come to one substitution. -/

/-- The values with one more. -/
def Values.set (values : Values) (p : Placeholder) (value : Text) : Values :=
  fun q => if q = p then some value else values q

/-- The condition under which values can be put into a text one after another: none of them holds
a percent sign, and none that begins with a digit lengthens a token. -/
structure Fits (values : Values) (t : Text) : Prop where
  percent_notMem : ∀ p value, values p = some value → '%' ∉ value
  not_standsBehindRun : ∀ p value, values p = some value → startsWithDigit value →
    ¬ StandsBehindRun p t

/-- The pieces of a text with values in it are the pieces of the values and the other pieces of the
text. -/
theorem pieces_substitute {values : Values} {t : Text} (h : Fits values t) :
    pieces (substitute values t) = (pieces t).flatMap (renderPieces values) :=
  pieces_flatMap_render h.percent_notMem (guarded_pieces h.not_standsBehindRun)

/-- A placeholder occurs in a text with values in it where it did before, if it has no value. -/
theorem occursIn_substitute {values : Values} {t : Text} (h : Fits values t) (p : Placeholder) :
    p.occursIn (substitute values t) = (p.occursIn t && (values p).isNone) := by
  rw [Bool.eq_iff_iff, Bool.and_eq_true, Option.isNone_iff_eq_none, occursIn_iff_mem_pieces,
    occursIn_iff_mem_pieces, pieces_substitute h, List.mem_flatMap]
  constructor
  · rintro ⟨piece, hpiece, hp⟩
    cases piece with
    | token q =>
      cases hq : values q with
      | none =>
        rw [renderPieces, hq, Option.elim_none, List.mem_singleton] at hp
        obtain rfl : p = q := Piece.token.inj hp
        exact ⟨hpiece, hq⟩
      | some value =>
        -- A value holds no token.
        simp [renderPieces, hq] at hp
    | plain c => simp [renderPieces] at hp
  · rintro ⟨hpiece, hp⟩
    exact ⟨.token p, hpiece, by simp [renderPieces, hp]⟩

/-- Replacing a placeholder that has no value yet adds its value to the others. -/
theorem replace_substitute {values : Values} {t : Text} (h : Fits values t) {p : Placeholder}
    (hp : values p = none) (value : Text) :
    p.replace value (substitute values t) = substitute (values.set p value) t := by
  rw [replace_eq_flatMap_pieces, pieces_substitute h, List.flatMap_assoc, substitute]
  refine List.flatMap_congr fun piece _ => ?_
  cases piece with
  | plain c => simp [renderPieces, render, Piece.toText]
  | token q =>
    -- The token itself gets the new value. Any other is a token of something else or a value, and
    -- in a value the replacement finds nothing.
    by_cases hq : q = p
    · subst hq
      simp [renderPieces, render, Values.set, hp]
    · cases hvalue : values q with
      | none => simp [renderPieces, render, Values.set, hvalue, hq, Piece.toText]
      | some other => simp [renderPieces, render, Values.set, hvalue, hq, Piece.toText,
          List.flatMap_map]

/-- A text stays as it is where there are no values. -/
theorem substitute_none (t : Text) : substitute (fun _ => none) t = t := by
  refine Eq.trans (List.flatMap_congr fun piece _ => ?_) (Text.flatten_pieces t)
  cases piece with
  | token p => rfl
  | plain c => rfl

/-- Putting values into a text brings in characters of the values only. -/
theorem mem_of_mem_substitute {values : Values} {t : Text} {c : Char}
    (h : c ∈ substitute values t) : (∃ p value, values p = some value ∧ c ∈ value) ∨ c ∈ t := by
  obtain ⟨piece, hpiece, hc⟩ := List.mem_flatMap.mp h
  -- A piece that stays is part of the text.
  have hkept : c ∈ piece.toText → c ∈ t := fun hmem => by
    rw [← Text.flatten_pieces t]
    exact List.mem_flatMap.mpr ⟨piece, hpiece, hmem⟩
  cases piece with
  | plain d => exact Or.inr (hkept hc)
  | token p =>
    cases hp : values p with
    | none =>
      rw [render, hp] at hc
      exact Or.inr (hkept hc)
    | some value =>
      rw [render, hp] at hc
      exact Or.inl ⟨p, value, hp, hc⟩

end AsmVariants.Proofs
