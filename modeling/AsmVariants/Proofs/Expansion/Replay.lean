import AsmVariants.Proofs.Expansion.Pass

/-!
# `AsmVariants.Proofs.Expansion.Replay`: the choices of a variant tell all of it

An expansion finds a first site, copies a variant for each candidate and fills the copies in from
that site on. A variant can skip a pass, and a value that is filled in can hold the token of a
placeholder whose pass is still to come. `replay` knows nothing of this. It goes through the
choices of a variant in their order, and for each choice it replaces the placeholder on every
line without a semicolon.

`lines_eq_replay` is the main statement: the replay of its choices on the template gives the lines
of a variant, for every text, every list of placeholders and every limit. So two variants with the
same choices have the same contents.
-/

set_option autoImplicit false

namespace AsmVariants.Proofs

/-- The lines after one choice: on every line without a semicolon its value takes the place of its
placeholder. -/
def applyChoice (lines : List Text) (choice : Choice) : List Text :=
  lines.map fun line =>
    if ';' ∈ line then line else choice.placeholder.replace choice.value line

/-- The lines after some choices, one after another. -/
def replay (lines : List Text) (choices : List Choice) : List Text :=
  choices.foldl applyChoice lines

/-- A line is an instruction if it has no semicolon. -/
theorem isInstruction_iff {line : Text} : isInstruction line ↔ ';' ∉ line := by
  simp [isInstruction]

/-- Filling in a line replaces the placeholder if the line has no semicolon: where the placeholder
does not occur, replacing it changes nothing. -/
theorem fillLine_eq (p : Placeholder) (value line : Text) :
    fillLine p value line = if ';' ∈ line then line else p.replace value line := by
  rw [fillLine, Placeholder.isSite]
  by_cases hsemicolon : ';' ∈ line
  · have hline : isInstruction line = false := by simpa [isInstruction] using hsemicolon
    rw [if_pos hsemicolon, hline, Bool.false_and, if_neg Bool.false_ne_true]
  · rw [if_neg hsemicolon, isInstruction_iff.mpr hsemicolon, Bool.true_and]
    cases hoccurs : p.occursIn line with
    | true => rw [if_pos rfl]
    | false => rw [if_neg Bool.false_ne_true, replace_of_not_occursIn value hoccurs]

/-- Filling in a line brings in characters of the value only. -/
theorem mem_of_mem_fillLine {p : Placeholder} {value line : Text} {c : Char}
    (h : c ∈ fillLine p value line) : c ∈ value ∨ c ∈ line := by
  rw [fillLine] at h
  split at h
  · exact mem_of_mem_replace h
  · exact Or.inr h

/-- The lines after one more choice are the replay of that choice. -/
theorem lines_withChoice (variant : Variant) (choice : Choice) :
    (withChoice variant choice).lines = applyChoice variant.lines choice :=
  List.map_congr_left fun line _ => fillLine_eq choice.placeholder choice.value line

/-- A step keeps it: if the lines are the replay of the choices, they still are. A variant that is
kept has no new choice, and one that is filled in has the choice at its end. -/
theorem replay_step {lines : List Text} {p : Placeholder} {before after : Variant}
    (h : before.lines = replay lines before.choices) (hstep : Step p before after) :
    after.lines = replay lines after.choices := by
  cases hstep with
  | keep => exact h
  | @choose _ _ choice =>
    -- The new choice is noted last, and the replay applies it last.
    rw [lines_withChoice, h]
    show applyChoice (replay lines before.choices) choice =
      replay lines (before.choices ++ [choice])
    rw [replay, replay, List.foldl_append]
    rfl

/-- The lines of a variant are the replay of its choices on the lines of the template. Two variants
with the same choices have the same contents. -/
theorem lines_eq_replay (text : Text) (ps : List Placeholder) (limit : Option UInt64)
    {variants : List Variant} (h : expand limit (Template.ofText text) ps = .ok variants) :
    (∀ variant ∈ variants,
      variant.lines = replay (Template.ofText text).lines variant.choices) ∧
    ∀ a ∈ variants, ∀ b ∈ variants, a.choices = b.choices → a.contents = b.contents := by
  -- No choice was made in the template, and a step replays one choice more.
  have hreplay : ∀ variant ∈ variants,
      variant.lines = replay (Template.ofText text).lines variant.choices := by
    refine passes_induction (passes_of_expand h) (fun variant hmem => ?_)
      fun p _ before variant => replay_step
    rw [List.mem_singleton] at hmem
    subst hmem
    rfl
  refine ⟨hreplay, fun a ha b hb hchoices => ?_⟩
  rw [Variant.contents, Variant.contents, hreplay a ha, hreplay b hb, hchoices]

/-- A template in which a value of `%1` is the token `%2`. -/
def nestedText : Text := "; %2=a,b ; %1=%2,x\nmov %1,%1\n".toList

/-- Its placeholders, with `%1` listed twice. -/
def nestedOrder : List Placeholder :=
  ["%1", "%2", "%1"].filterMap fun token => Placeholder.ofToken? token.toList

/-- Two variants of the template take the second pass and one skips it, and the limit is just
met. -/
theorem lines_eq_replay_nestedText :
    ∃ variants, expand (some 3) (Template.ofText nestedText) nestedOrder = .ok variants ∧
      variants.map Variant.contents =
        ["; %2=a,b ; %1=%2,x\nmov a,a\n".toList, "; %2=a,b ; %1=%2,x\nmov b,b\n".toList,
          "; %2=a,b ; %1=%2,x\nmov x,x\n".toList] ∧
      ∀ variant ∈ variants,
        variant.lines = replay (Template.ofText nestedText).lines variant.choices := by
  obtain ⟨variants, h⟩ :
    ∃ variants, expand (some 3) (Template.ofText nestedText) nestedOrder = .ok variants := ⟨_, rfl⟩
  have hcontents : (expand (some 3) (Template.ofText nestedText) nestedOrder).map
      (List.map Variant.contents) = .ok
        ["; %2=a,b ; %1=%2,x\nmov a,a\n".toList, "; %2=a,b ; %1=%2,x\nmov b,b\n".toList,
          "; %2=a,b ; %1=%2,x\nmov x,x\n".toList] := rfl
  rw [h] at hcontents
  exact ⟨variants, h, Except.ok.inj hcontents, (lines_eq_replay _ _ _ h).1⟩

end AsmVariants.Proofs
