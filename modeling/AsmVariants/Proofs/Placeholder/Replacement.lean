import AsmVariants.Proofs.Placeholder.Offsets
import AsmVariants.Proofs.Placeholder.Substitution

/-!
# `AsmVariants.Proofs.Placeholder.Replacement`: a replacement is a map over tokens

`Cut` says what it is to cut a text into tokens that take all the digits they can get, without
saying how to find them. There is exactly one such cut, the pieces of the text (`cut_iff`).

`replace_eq_flatMap_cut` is the main statement: replacing a placeholder maps the parts of the cut,
token by token, and puts the value in as it is. What that does to the tokens of other placeholders
is a fact about values in general: as long as no value can become part of a token
(`Fits`), a placeholder without a value has as many occurrences as before
(`length_occurrences_substitute`).
-/

set_option autoImplicit false

namespace AsmVariants.Proofs

open Placeholder (startsWithDigit)
open Text (pieces)

/-! ### The cut into tokens

A `Cut` says nothing about how it is made: the parts make up the text, and no digit follows a part
that it would lengthen. -/

/-- The parts are the text, cut into tokens and other characters. A token takes every digit behind
it, and a percent sign with a digit behind it is part of a token. -/
structure Cut (parts : List Piece) (t : Text) : Prop where
  flatten : parts.flatMap Piece.toText = t
  maximal : parts.IsChain fun piece next =>
    opensRun piece → startsWithDigit next.toText = false

/-- Without values every piece is written as it was. -/
theorem render_none : render (fun _ => none) = Piece.toText := by
  funext piece
  cases piece with
  | token p => rfl
  | plain c => rfl

/-- A text has one cut. -/
theorem cut_iff {parts : List Piece} {t : Text} : Cut parts t ↔ pieces t = parts := by
  -- A cut is what is left of a text when no value is put in, so the law of guarded pieces applies
  -- to it.
  have hnone : ∀ p value, (fun _ => none : Values) p = some value → '%' ∉ value := nofun
  have hguarded : ∀ parts : List Piece, Guarded (fun _ => none) parts ↔ parts.IsChain
      fun piece next => opensRun piece → startsWithDigit next.toText = false := by
    intro parts
    rw [Guarded, render_none]
  constructor
  · rintro ⟨rfl, hmaximal⟩
    have hcut := pieces_flatMap_render hnone ((hguarded parts).mpr hmaximal)
    have hkeep : ∀ piece ∈ parts, renderPieces (fun _ => none) piece = [piece] := by
      intro piece _
      cases piece with
      | token p => rfl
      | plain c => rfl
    rwa [render_none, List.flatMap_congr hkeep, List.flatMap_singleton'] at hcut
  · rintro rfl
    have hpieces : Guarded (fun _ => none) (pieces t) := guarded_pieces nofun
    exact ⟨Text.flatten_pieces t, (hguarded _).mp hpieces⟩

/-! ### One placeholder with a value

A replacement is a substitution in which one placeholder has a value, so what is known of
substitutions applies to it. -/

/-- Replacing a placeholder gives a value to it alone. -/
theorem replace_eq_substitute (p : Placeholder) (value t : Text) :
    p.replace value t = substitute (Values.set (fun _ => none) p value) t := by
  have hfits : Fits (fun _ => none) t := ⟨nofun, nofun⟩
  have hreplace := replace_substitute hfits (p := p) rfl value
  rwa [substitute_none] at hreplace

/-- A value without a percent sign and without a digit at its start can be put anywhere: it makes no
token with what is around it. -/
theorem fits_set_none {p : Placeholder} {value : Text} (hpercent : '%' ∉ value)
    (hdigit : startsWithDigit value = false) (t : Text) :
    Fits (Values.set (fun _ => none) p value) t := by
  -- There is no other value than this one.
  have hvalue : ∀ q other, Values.set (fun _ => none) p value q = some other →
      other = value := by
    intro q other hq
    rw [Values.set] at hq
    split at hq
    · exact (Option.some.inj hq).symm
    · exact absurd hq.symm (Option.some_ne_none other)
  constructor
  · intro q other hq
    rwa [hvalue q other hq]
  · intro q other hq hother
    rw [hvalue q other hq, hdigit] at hother
    exact absurd hother Bool.false_ne_true

/-! ### The tokens of other placeholders -/

/-- Values hold no tokens, so the tokens that are left are those without a value. -/
theorem count_flatMap_renderPieces {values : Values} {q : Placeholder} (hq : values q = none)
    (parts : List Piece) :
    (parts.flatMap (renderPieces values)).count (.token q) = parts.count (.token q) := by
  induction parts with
  | nil => rfl
  | cons piece parts ih =>
    have hpiece : (renderPieces values piece).count (.token q) = [piece].count (.token q) := by
      cases piece with
      | plain c => rfl
      | token r =>
        cases hr : values r with
        | none => rw [renderPieces, hr, Option.elim_none]
        | some value =>
          -- A value takes the place of another token and is plain.
          have hne : r ≠ q := by
            rintro rfl
            exact Option.some_ne_none value (hr.symm.trans hq)
          have hvalue : Piece.token q ∉ value.map Piece.plain := by simp
          have hother : Piece.token q ∉ [Piece.token r] := by simpa using Ne.symm hne
          rw [renderPieces, hr, Option.elim_some, List.count_eq_zero.mpr hvalue,
            List.count_eq_zero.mpr hother]
    rw [List.flatMap_cons, List.count_append, ih, hpiece, ← List.count_append,
      List.singleton_append]

/-- A placeholder without a value occurs as often as before. -/
theorem length_occurrences_substitute {values : Values} {t : Text} (h : Fits values t)
    {q : Placeholder} (hq : values q = none) :
    (q.occurrences (substitute values t)).length = (q.occurrences t).length := by
  rw [length_occurrences, length_occurrences, pieces_substitute h,
    count_flatMap_renderPieces hq]

/-! ### The map over tokens

The pieces of the result are known if the value makes no token with its neighbours. Otherwise only
the text of the result is told by the pieces. -/

/-- The value that is put in for an occurrence is not read again, whatever it holds. -/
theorem replace_append_token (p : Placeholder) (value before : Text) {after : Text}
    (h : startsWithDigit after = false) :
    p.replace value (before ++ (p.token ++ after)) =
      p.replace value before ++ (value ++ p.replace value after) := by
  have hdigit := startsWithDigit_token_append p after
  rw [replace_append_of_startsWithDigit hdigit, replace_token_append p p value h, if_pos rfl]

/-- A replacement maps the parts of the cut: each token of the placeholder becomes the value, and
every other part stays. So it puts the value in for one occurrence after another and does not
look at it again; the placeholder's own token changes nothing, and neither does any value where the
placeholder does not occur. If the value holds no percent sign and begins with no digit, no
occurrence is left, and every other placeholder occurs as often as before. -/
theorem replace_eq_flatMap_cut (p : Placeholder) (value t : Text) :
    (∃! parts, Cut parts t) ∧
    (∀ parts, Cut parts t → p.replace value t =
      parts.flatMap fun piece => if piece = .token p then value else piece.toText) ∧
    (∀ before after : Text, startsWithDigit after = false →
      t = before ++ (p.token ++ after) →
        p.replace value t = p.replace value before ++ (value ++ p.replace value after)) ∧
    p.replace p.token t = t ∧
    (p.occurrences t = [] → p.replace value t = t) ∧
    ('%' ∉ value → startsWithDigit value = false →
      p.occurrences (p.replace value t) = [] ∧
      ∀ q, q ≠ p →
        (q.occurrences (p.replace value t)).length = (q.occurrences t).length) := by
  refine ⟨⟨pieces t, cut_iff.mpr rfl, fun parts hcut => (cut_iff.mp hcut).symm⟩, ?_, ?_, ?_, ?_, ?_⟩
  · intro parts hcut
    rw [replace_eq_flatMap_pieces, cut_iff.mp hcut]
  · rintro before after hdigit rfl
    exact replace_append_token p value before hdigit
  · have hkeep : ∀ piece ∈ pieces t,
        (if piece = .token p then p.token else piece.toText) = piece.toText := by
      intro piece _
      split
      · next hpiece => rw [hpiece, Piece.toText]
      · rfl
    rw [replace_eq_flatMap_pieces, List.flatMap_congr hkeep, Text.flatten_pieces]
  · intro hnone
    exact replace_of_not_occursIn value ((occurrences_eq_nil_iff p t).mp hnone)
  · intro hpercent hdigit
    -- Such a value makes no token with its neighbours, so the pieces of the result are known.
    have hfits := fits_set_none (p := p) hpercent hdigit t
    rw [replace_eq_substitute]
    constructor
    · rw [occurrences_eq_nil_iff, occursIn_substitute hfits, Values.set, if_pos rfl,
        Option.isNone_some, Bool.and_false]
    · intro q hq
      have hvalue : Values.set (fun _ => none) p value q = none := if_neg hq
      exact length_occurrences_substitute hfits hvalue

/-- A text in which tokens stand next to one another and behind a percent sign. -/
def crammedText : Text := "%%1%12%1%1 %x".toList

/-- The parts of it. -/
def crammedParts (one twelve : Placeholder) : List Piece :=
  [.plain '%', .token one, .token twelve, .token one, .token one, .plain ' ', .plain '%',
    .plain 'x']

/-- A value that holds the token twice is put in once for each occurrence, and the empty value
leaves the longer token as it is, behind the percent sign. -/
theorem replace_eq_flatMap_cut_crammedText :
    ∃ one twelve : Placeholder, one.token = "%1".toList ∧ twelve.token = "%12".toList ∧
      Cut (crammedParts one twelve) crammedText ∧
      one.replace "%1%1".toList crammedText = "%%1%1%12%1%1%1%1 %x".toList ∧
      one.replace [] crammedText = "%%12 %x".toList ∧
      one.occurrences (one.replace [] crammedText) = [] ∧
      (twelve.occurrences (one.replace [] crammedText)).length =
        (twelve.occurrences crammedText).length := by
  let one : Placeholder := ⟨['1'], by decide, by decide⟩
  let twelve : Placeholder := ⟨['1', '2'], by decide, by decide⟩
  have hcut : Cut (crammedParts one twelve) crammedText := ⟨by decide, by decide⟩
  obtain ⟨-, htwice, -⟩ := replace_eq_flatMap_cut one "%1%1".toList crammedText
  obtain ⟨-, hempty, -, -, -, hothers⟩ := replace_eq_flatMap_cut one [] crammedText
  obtain ⟨hnone, hsame⟩ := hothers List.not_mem_nil rfl
  exact ⟨one, twelve, rfl, rfl, hcut, htwice _ hcut, hempty _ hcut, hnone,
    hsame twelve (by decide)⟩

end AsmVariants.Proofs
