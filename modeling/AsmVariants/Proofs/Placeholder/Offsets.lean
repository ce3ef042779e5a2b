import AsmVariants.Proofs.Placeholder.Pieces

/-!
# `AsmVariants.Proofs.Placeholder.Offsets`: at which offsets a placeholder stands

`Placeholder.occurrences` finds the offsets of one placeholder, in bytes, by a walk over all
characters. `tokenOffsets` reads the same offsets off the pieces of a text, where every token has
been told apart from the others already. The bridge between the two is
`occurrences_eq_tokenOffsets`, and what follows it is a matter of lists of pieces:

* `mem_tokenOffsets_iff`: the offsets are those at which a piece is the token.
* `pairwise_tokenOffsets`: they ascend, and from one to the next it is at least the length of the
  token.
* `length_tokenOffsets`: there are as many as there are tokens.
* `mem_occurrences_iff_stands`: the offsets are also those at which the token stands and no digit
  follows, wherever the pieces of the text may begin.
-/

set_option autoImplicit false

namespace AsmVariants.Proofs

open Placeholder (startsWithDigit)
open Text (pieces utf8Size)

/-- The bytes of two texts add up. -/
theorem utf8Size_append (s t : Text) : utf8Size (s ++ t) = utf8Size s + utf8Size t := by
  induction s with
  | nil => simp [utf8Size]
  | cons c s ih =>
    show c.utf8Size + utf8Size (s ++ t) = c.utf8Size + utf8Size s + utf8Size t
    rw [ih, Nat.add_assoc]

/-- A token takes some bytes, so the offset grows behind it. -/
theorem utf8Size_token_pos (p : Placeholder) : 0 < utf8Size p.token := by
  show 0 < '%'.utf8Size + utf8Size p.digits
  have hpercent : 0 < '%'.utf8Size := Char.utf8Size_pos _
  omega

/-! ### The offsets of tokens among pieces

Offsets are counted in bytes. A piece has one byte at least, so later pieces have greater offsets.
-/

/-- The offsets at which the token of a placeholder stands among pieces, when the first of them is
at a given offset. -/
def tokenOffsets (p : Placeholder) : Nat → List Piece → List Nat
  | _, [] => []
  | offset, piece :: parts =>
    if piece = .token p then offset :: tokenOffsets p (offset + utf8Size piece.toText) parts
    else tokenOffsets p (offset + utf8Size piece.toText) parts

section

variable (p : Placeholder)

/-- A plain character is no token, and what stands behind it is further on by its bytes. -/
theorem tokenOffsets_plain_cons (offset : Nat) (c : Char) (parts : List Piece) :
    tokenOffsets p offset (.plain c :: parts) =
      tokenOffsets p (offset + utf8Size (Piece.plain c).toText) parts := by
  simp [tokenOffsets]

/-- An offset is in the list exactly if the token is a piece there, behind pieces with so many
bytes. -/
theorem mem_tokenOffsets_iff (offset : Nat) (parts : List Piece) (position : Nat) :
    position ∈ tokenOffsets p offset parts ↔ ∃ before after,
      parts = before ++ .token p :: after ∧
        position = offset + utf8Size (before.flatMap Piece.toText) := by
  induction parts generalizing offset with
  | nil => simp [tokenOffsets]
  | cons piece parts ih =>
    -- The first piece is the token, or the offset belongs to a later piece.
    have hmem : position ∈ tokenOffsets p offset (piece :: parts) ↔
        piece = .token p ∧ position = offset ∨
          position ∈ tokenOffsets p (offset + utf8Size piece.toText) parts := by
      rw [tokenOffsets]
      split <;> simp [*]
    rw [hmem, ih]
    constructor
    · rintro (⟨rfl, rfl⟩ | ⟨before, after, rfl, rfl⟩)
      · exact ⟨[], parts, rfl, rfl⟩
      · refine ⟨piece :: before, after, rfl, ?_⟩
        rw [List.flatMap_cons, utf8Size_append, Nat.add_assoc]
    · rintro ⟨before, after, hparts, rfl⟩
      cases before with
      | nil =>
        obtain ⟨rfl, rfl⟩ := List.cons.inj hparts
        exact Or.inl ⟨rfl, rfl⟩
      | cons first before =>
        obtain ⟨rfl, rfl⟩ := List.cons.inj hparts
        refine Or.inr ⟨before, after, rfl, ?_⟩
        rw [List.flatMap_cons, utf8Size_append, Nat.add_assoc]

/-- No token stands before the pieces begin. -/
theorem le_of_mem_tokenOffsets {p : Placeholder} {offset position : Nat} {parts : List Piece}
    (h : position ∈ tokenOffsets p offset parts) : offset ≤ position := by
  obtain ⟨before, after, -, rfl⟩ := (mem_tokenOffsets_iff p offset parts position).mp h
  exact Nat.le_add_right offset _

/-- The offsets increase, and one token ends before the next begins. -/
theorem pairwise_tokenOffsets (offset : Nat) (parts : List Piece) :
    (tokenOffsets p offset parts).Pairwise fun first next =>
      first + utf8Size p.token ≤ next := by
  induction parts generalizing offset with
  | nil => exact List.Pairwise.nil
  | cons piece parts ih =>
    rw [tokenOffsets]
    split
    · next hpiece =>
      subst hpiece
      exact List.pairwise_cons.mpr ⟨fun next hnext => le_of_mem_tokenOffsets hnext, ih _⟩
    · exact ih _

/-- There is one offset for each piece that is the token. -/
theorem length_tokenOffsets (offset : Nat) (parts : List Piece) :
    (tokenOffsets p offset parts).length = parts.count (.token p) := by
  induction parts generalizing offset with
  | nil => rfl
  | cons piece parts ih =>
    rw [tokenOffsets, List.count_cons]
    split
    · next hpiece => simp [hpiece, ih]
    · next hpiece => simp [hpiece, ih]

/-- A placeholder whose token is among the pieces has a first offset. -/
theorem exists_head?_tokenOffsets (offset : Nat) {parts : List Piece} (h : .token p ∈ parts) :
    ∃ first ∈ (tokenOffsets p offset parts).head?, offset ≤ first := by
  have hlength : 0 < (tokenOffsets p offset parts).length := by
    rw [length_tokenOffsets]
    exact List.count_pos_iff.mpr h
  cases hoffsets : tokenOffsets p offset parts with
  | nil => simp [hoffsets] at hlength
  | cons first others =>
    have hfirst : first ∈ tokenOffsets p offset parts := by
      rw [hoffsets]
      exact List.mem_cons_self
    exact ⟨first, rfl, le_of_mem_tokenOffsets hfirst⟩

end

/-! ### Occurrences are tokens, with their offsets

The search goes through a text character by character and tries the placeholder at each. The
induction is by pieces, so it has to be shown that nothing is found inside of a piece. -/

/-- Text without a percent sign is passed over. -/
theorem occurrencesFrom_append {t : Text} (p : Placeholder) (offset : Nat) (rest : Text)
    (h : '%' ∉ t) :
    p.occurrencesFrom offset (t ++ rest) = p.occurrencesFrom (offset + utf8Size t) rest := by
  induction t generalizing offset with
  | nil => rfl
  | cons c t ih =>
    rw [List.mem_cons, not_or] at h
    rw [List.cons_append, Placeholder.occurrencesFrom, opens_cons p _ (Ne.symm h.1),
      if_neg Bool.false_ne_true, ih _ h.2, Nat.add_assoc]
    rfl

/-- The walk over the characters finds the tokens among the pieces. -/
theorem occurrencesFrom_eq_tokenOffsets (p : Placeholder) (offset : Nat) (t : Text) :
    p.occurrencesFrom offset t = tokenOffsets p offset (pieces t) := by
  induction t using piecewise generalizing offset with
  | nil => simp [Placeholder.occurrencesFrom, pieces, tokenOffsets]
  | token q rest h ih =>
    have hopen : p.opens ('%' :: (q.digits ++ rest)) = decide (q = p) := opens_token_append p q h
    -- The walk goes on inside the token, and there the digits are passed over.
    have hinside := occurrencesFrom_append p (offset + '%'.utf8Size) rest
      (percent_notMem_digits q)
    rw [pieces_token_append q h, tokenOffsets, ← ih]
    show p.occurrencesFrom offset ('%' :: (q.digits ++ rest)) = _
    rw [Placeholder.occurrencesFrom, hopen, hinside, Nat.add_assoc]
    simp only [decide_eq_true_eq, Piece.token.injEq]
    rfl
  | percent rest h ih =>
    rw [Placeholder.occurrencesFrom, opens_percent_cons p h, if_neg Bool.false_ne_true, ih,
      pieces_percent_cons h, tokenOffsets_plain_cons]
    rfl
  | plain c rest h ih =>
    rw [Placeholder.occurrencesFrom, opens_cons p rest h, if_neg Bool.false_ne_true, ih,
      pieces_cons rest h, tokenOffsets_plain_cons]
    rfl

/-- The occurrences of a placeholder are the offsets of its token among the pieces of the text. -/
theorem occurrences_eq_tokenOffsets (p : Placeholder) (t : Text) :
    p.occurrences t = tokenOffsets p 0 (pieces t) :=
  occurrencesFrom_eq_tokenOffsets p 0 t

/-- A placeholder occurs as often as its token is a piece. -/
theorem length_occurrences (p : Placeholder) (t : Text) :
    (p.occurrences t).length = (pieces t).count (.token p) := by
  rw [occurrences_eq_tokenOffsets, length_tokenOffsets]

/-- A placeholder has no occurrence exactly if the test for one fails, so the list and the test
agree. -/
theorem occurrences_eq_nil_iff (p : Placeholder) (t : Text) :
    p.occurrences t = [] ↔ p.occursIn t = false := by
  rw [← List.length_eq_zero_iff, length_occurrences, List.count_eq_zero,
    ← occursIn_iff_mem_pieces, Bool.not_eq_true]

/-- The offsets that are found are those at which the token stands with no digit behind it. Each of
the two is what stands there, so it does not matter where the pieces of the text begin. -/
theorem mem_occurrencesFrom_iff_stands (p : Placeholder) (offset : Nat) (t : Text)
    (position : Nat) :
    position ∈ p.occurrencesFrom offset t ↔ ∃ before after : Text,
      t = before ++ (p.token ++ after) ∧ startsWithDigit after = false ∧
        position = offset + utf8Size before := by
  induction t generalizing offset with
  | nil => simp [Placeholder.occurrencesFrom, Placeholder.token]
  | cons c t ih =>
    -- The token stands at the front, or it stands in the rest, one character further on.
    have hmem : position ∈ p.occurrencesFrom offset (c :: t) ↔
        p.opens (c :: t) ∧ position = offset ∨
          position ∈ p.occurrencesFrom (offset + c.utf8Size) t := by
      rw [Placeholder.occurrencesFrom]
      split <;> simp [*]
    rw [hmem, ih, Placeholder.opens, Option.isSome_iff_exists]
    constructor
    · rintro (⟨⟨after, hafter⟩, rfl⟩ | ⟨before, after, rfl, hdigit, rfl⟩)
      · obtain ⟨heq, hdigit⟩ := textAfter?_eq_some_iff.mp hafter
        exact ⟨[], after, heq.symm, hdigit, rfl⟩
      · exact ⟨c :: before, after, rfl, hdigit, Nat.add_assoc _ _ _⟩
    · rintro ⟨before, after, ht, hdigit, rfl⟩
      cases before with
      | nil => exact Or.inl ⟨⟨after, textAfter?_eq_some_iff.mpr ⟨ht.symm, hdigit⟩⟩, rfl⟩
      | cons d before =>
        obtain ⟨rfl, rfl⟩ := List.cons.inj ht
        exact Or.inr ⟨before, after, rfl, hdigit, (Nat.add_assoc _ _ _).symm⟩

/-- The same for a whole text, where offsets count from its start. -/
theorem mem_occurrences_iff_stands (p : Placeholder) (t : Text) (position : Nat) :
    position ∈ p.occurrences t ↔ ∃ before after : Text,
      t = before ++ (p.token ++ after) ∧ startsWithDigit after = false ∧
        position = utf8Size before := by
  have hfrom := mem_occurrencesFrom_iff_stands p 0 t position
  simp only [Nat.zero_add] at hfrom
  exact hfrom

end AsmVariants.Proofs
