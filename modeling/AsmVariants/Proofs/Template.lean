import AsmVariants.Proofs.List
import AsmVariants.Proofs.Placeholder.Offsets
import AsmVariants.Proofs.Text.Lines
import AsmVariants.Template

/-!
# `AsmVariants.Proofs.Template`: which placeholders a template lists, and in which order

The placeholders of a template are read line by line, by the pieces of each line. A newline is no
part of a token, so the lines have together the pieces of the whole text
(`pieces_flatten`, `flatMap_tokens_splitLines`), and the order in which tokens are first seen is
that of their offsets in the text (`pairwise_head?_tokenOffsets`).

The main statement, `occurrences_agree_placeholders`, puts the two ways to find tokens next
to each other: the search for one placeholder, and the cut into pieces that the list of all
placeholders comes from.
-/

set_option autoImplicit false

namespace AsmVariants.Proofs

open Placeholder (startsWithDigit)
open Text (pieces utf8Size)

/-- Either order has the placeholders that were found. -/
theorem perm_arrange (order : PlaceholderOrder) (found : List Placeholder) :
    (order.arrange found).Perm found := by
  cases order with
  | firstSeen => exact List.Perm.refl found
  | numeric => exact List.mergeSort_perm found _

/-- The placeholders of a template are those that occur on its lines. -/
theorem mem_placeholders_iff {template : Template} {order : PlaceholderOrder} {p : Placeholder} :
    p ∈ template.placeholders order ↔ ∃ line ∈ template.lines, p.occursIn line := by
  rw [Template.placeholders, (perm_arrange order _).mem_iff, List.mem_eraseDups, List.mem_flatMap]
  simp only [mem_tokens_iff]

/-! ### Lines and the whole text

Tokens are looked for line by line, and a line may begin with digits. The newline in front of it
keeps these from the token that the line before may end with. -/

/-- Lines that stay apart have together the pieces of the text that they make up. A line may begin
with a digit, but the one before it ends in a newline, which no digit lengthens. -/
theorem pieces_flatten {lines : List Text} (h : LineByLine lines) :
    pieces lines.flatten = lines.flatMap pieces := by
  induction h with
  | nil => simp [pieces]
  | last _ => simp
  | @cons body lines _ _ ih =>
    have hnewline : '\n' ≠ '%' := by decide
    -- A newline is no part of a token, so the text can be cut behind it.
    have hcut : ∀ rest : Text, pieces (body ++ '\n' :: rest) =
        pieces body ++ .plain '\n' :: pieces rest := by
      intro rest
      have hdigit : Placeholder.startsWithDigit ('\n' :: rest) = false := rfl
      rw [pieces_append_of_startsWithDigit hdigit, pieces_cons rest hnewline]
    rw [List.flatten_cons, List.append_assoc, List.singleton_append, hcut, List.flatMap_cons, hcut,
      ih]
    simp [pieces]

/-- The tokens of a text are those of its lines, since no token goes across a newline. -/
theorem flatMap_tokens_splitLines (t : Text) :
    (Text.splitLines t).flatMap Text.tokens = t.tokens := by
  have hpieces := pieces_flatten (lineByLine_splitLines t)
  rw [Text.flatten_splitLines] at hpieces
  rw [Text.tokens, hpieces, List.filterMap_flatMap]
  rfl

/-! ### The order in which tokens are seen

The first piece with a token is at the first offset of its placeholder, so first occurrences in the
list of pieces are in the order of the offsets. -/

/-- Of two placeholders, the one that is seen first has the first offset. -/
theorem pairwise_head?_tokenOffsets (offset : Nat) (parts : List Piece) :
    (parts.filterMap Piece.placeholder?).eraseDups.Pairwise fun p q =>
      ∃ first ∈ (tokenOffsets p offset parts).head?,
        ∃ later ∈ (tokenOffsets q offset parts).head?, first < later := by
  induction parts generalizing offset with
  | nil => exact List.Pairwise.nil
  | cons piece parts ih =>
    have hrest := ih (offset + utf8Size piece.toText)
    cases piece with
    | plain c =>
      simp only [tokenOffsets_plain_cons]
      exact hrest
    | token r =>
      -- The offsets of another placeholder are those in the rest of the text.
      have hother : ∀ {p : Placeholder}, p ≠ r → tokenOffsets p offset (.token r :: parts) =
          tokenOffsets p (offset + utf8Size r.token) parts := by
        intro p hp
        rw [tokenOffsets, if_neg fun h => hp (Piece.token.inj h).symm]
        rfl
      have hseen : ((Piece.token r :: parts).filterMap Piece.placeholder?).eraseDups =
          r :: (parts.filterMap Piece.placeholder?).eraseDups.filter fun p => !p == r := by
        rw [List.filterMap_cons_some (by rfl), List.eraseDups_cons, eraseDups_filter]
      rw [hseen, List.pairwise_cons]
      constructor
      · intro q hq
        obtain ⟨hq, hne⟩ := List.mem_filter.mp hq
        replace hne : q ≠ r := by simpa using hne
        obtain ⟨piece, hpiece, hplaceholder⟩ :=
          List.mem_filterMap.mp (List.mem_eraseDups.mp hq)
        have hmem : Piece.token q ∈ parts := by
          cases piece with
          | token p => exact Option.some.inj hplaceholder ▸ hpiece
          | plain c => exact absurd hplaceholder.symm (Option.some_ne_none q)
        obtain ⟨later, hlater, hle⟩ :=
          exists_head?_tokenOffsets q (offset + utf8Size r.token) hmem
        refine ⟨offset, by simp [tokenOffsets], later, by rwa [hother hne], ?_⟩
        have hpos := utf8Size_token_pos r
        omega
      · refine (hrest.filter _).imp_of_mem fun {p q} hp hq h => ?_
        have hp : p ≠ r := by simpa using (List.mem_filter.mp hp).2
        have hq : q ≠ r := by simpa using (List.mem_filter.mp hq).2
        rw [hother hp, hother hq]
        exact h

/-! ### The two ways to find tokens -/

/-- The search for a placeholder finds, in ascending order, the offsets of the pieces that are its
token. These are also the offsets at which the token stands and no digit follows, and no two
occurrences overlap. The placeholders of a text, as they are first seen, are those that are found
on some line or in the whole text; each is listed once, in the order of the first offsets, and is
read back from its token. -/
theorem occurrences_agree_placeholders (t : Text) :
    (∀ p : Placeholder,
      (p.occurrences t).Pairwise (· < ·) ∧
      (∀ offset, offset ∈ p.occurrences t ↔ ∃ before after : List Piece,
        pieces t = before ++ .token p :: after ∧
          offset = utf8Size (before.flatMap Piece.toText)) ∧
      (∀ offset, offset ∈ p.occurrences t ↔ ∃ before after : Text,
        t = before ++ (p.token ++ after) ∧ startsWithDigit after = false ∧
          offset = utf8Size before) ∧
      (p.occurrences t).Pairwise (fun first next => first + utf8Size p.token ≤ next) ∧
      (p.occursIn t ↔ p.occurrences t ≠ [])) ∧
    ((Template.ofText t).placeholders .firstSeen).Nodup ∧
    (∀ p, p ∈ (Template.ofText t).placeholders .firstSeen ↔
      ∃ line ∈ (Template.ofText t).lines, p.occursIn line) ∧
    (∀ p, p ∈ (Template.ofText t).placeholders .firstSeen ↔ p.occursIn t) ∧
    ((Template.ofText t).placeholders .firstSeen).Pairwise (fun p q =>
      ∃ first ∈ (p.occurrences t).head?, ∃ later ∈ (q.occurrences t).head?, first < later) ∧
    ∀ p ∈ (Template.ofText t).placeholders .firstSeen,
      Placeholder.ofToken? p.token = some p := by
  -- The scan goes line by line and finds what stands in the whole text, each token once.
  have hfound : (Template.ofText t).placeholders .firstSeen = t.tokens.eraseDups := by
    show ((Text.splitLines t).flatMap Text.tokens).eraseDups = _
    rw [flatMap_tokens_splitLines]
  refine ⟨fun p => ⟨?_, ?_, mem_occurrences_iff_stands p t, ?_, ?_⟩, ?_,
    fun p => mem_placeholders_iff, fun p => ?_, ?_, fun p _ => Placeholder.ofToken?_token p⟩
  · rw [occurrences_eq_tokenOffsets]
    refine (pairwise_tokenOffsets p 0 (pieces t)).imp fun {first next} h => ?_
    have hpos := utf8Size_token_pos p
    omega
  · intro offset
    rw [occurrences_eq_tokenOffsets, mem_tokenOffsets_iff]
    simp only [Nat.zero_add]
  · rw [occurrences_eq_tokenOffsets]
    exact pairwise_tokenOffsets p 0 (pieces t)
  · rw [ne_eq, occurrences_eq_nil_iff, Bool.not_eq_false]
  · rw [hfound]
    exact nodup_eraseDups t.tokens
  · rw [hfound, List.mem_eraseDups, mem_tokens_iff]
  · rw [hfound]
    simp only [occurrences_eq_tokenOffsets]
    exact pairwise_head?_tokenOffsets 0 (pieces t)

/-- A text in which `%1` stands behind a percent sign, at the start of a line, before a longer token
and at the end. The first character takes two bytes. -/
def scatteredText : Text := "\u00B5%%1\n%1%12 %\n12%1".toList

/-- Neither `%12` nor the percent sign at the end of a line, with digits on the next one, counts for
`%1`, which is listed first. -/
theorem occurrences_agree_placeholders_scatteredText :
    ∃ one twelve : Placeholder,
      (Template.ofText scatteredText).placeholders .firstSeen = [one, twelve] ∧
      one.occurrences scatteredText = [3, 6, 16] ∧ twelve.occurrences scatteredText = [8] ∧
      (∃ first ∈ (one.occurrences scatteredText).head?,
        ∃ later ∈ (twelve.occurrences scatteredText).head?, first < later) ∧
      Placeholder.ofToken? twelve.token = some twelve := by
  have hlisted : (Template.ofText scatteredText).placeholders .firstSeen =
      [⟨['1'], by decide, by decide⟩, ⟨['1', '2'], by decide, by decide⟩] := by decide +kernel
  obtain ⟨-, -, -, -, horder, hread⟩ := occurrences_agree_placeholders scatteredText
  rw [hlisted] at horder hread
  exact ⟨_, _, hlisted, by decide +kernel, by decide +kernel,
    List.rel_of_pairwise_cons horder List.mem_cons_self,
    hread _ (List.mem_cons_of_mem _ List.mem_cons_self)⟩

end AsmVariants.Proofs
