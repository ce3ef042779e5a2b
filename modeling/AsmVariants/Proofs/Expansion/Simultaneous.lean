import AsmVariants.Proofs.Expansion.Product

/-!
# `AsmVariants.Proofs.Expansion.Simultaneous`: one after another is all at once

The passes put one value after another into the lines, each into what the passes before have left.
On a clean template this comes to the same as one substitution: `lines_eq_substitute` says that
every variant has the lines of the template with all its values put in at once, and that it has a
value for exactly the placeholders that were listed and stand on an instruction line.
-/

set_option autoImplicit false

namespace AsmVariants.Proofs

/-- A line is a site if it has no semicolon and the token of the placeholder stands on it. -/
theorem isSite_iff_mem_tokens {p : Placeholder} {line : Text} :
    p.isSite line ↔ ';' ∉ line ∧ p ∈ Text.tokens line := by
  rw [Placeholder.isSite, Bool.and_eq_true, isInstruction_iff, mem_tokens_iff]

/-- Each line of a variant of a clean template is the line of the template if it has a semicolon,
and is otherwise that line with the values of all its tokens put in at once. The values are those
that the variant's choices record, one for each placeholder that is listed and has a token on a
line without a semicolon. -/
theorem lines_eq_substitute {text : Text} {ps : List Placeholder} {variants : List Variant}
    (clean : Clean (Template.ofText text) ps)
    (h : expand none (Template.ofText text) ps = .ok variants) :
    ∀ variant ∈ variants,
      variant.lines = (Template.ofText text).lines.map (fun line =>
        if ';' ∈ line then line else substitute (valuesOf variant.choices) line) ∧
      (variant.choices.map Choice.placeholder).Nodup ∧
      ∀ p, p ∈ variant.choices.map Choice.placeholder ↔
        p ∈ ps ∧ ∃ line ∈ (Template.ofText text).lines, ';' ∉ line ∧ p ∈ Text.tokens line := by
  intro variant hmem
  obtain ⟨-, rfl⟩ := (passes_eq_ok_iff clean).mp (passes_of_expand h)
  obtain ⟨choices, hchoices, rfl⟩ := List.mem_map.mp hmem
  have hplaceholders : choices.map Choice.placeholder = sited (Template.ofText text) ps :=
    (mem_choiceLists_iff.mp hchoices).2
  refine ⟨rfl, ?_, fun p => ?_⟩
  · show (choices.map Choice.placeholder).Nodup
    rw [hplaceholders]
    exact nodup_sited (Template.ofText text) ps
  · show p ∈ choices.map Choice.placeholder ↔ _
    rw [hplaceholders, mem_sited_iff]
    simp only [isSite_iff_mem_tokens]

/-- A template in which values are empty, a value is a digit, and a percent sign and tokens stand
side by side. -/
def crowdedText : Text := "; %1=a, ; %2=,x ; %3=7\nmov %3%1%%2%1\n; %2\n".toList

/-- Its placeholders, with `%2` listed twice and one that does not stand in the template. -/
def crowdedOrder : List Placeholder :=
  ["%2", "%3", "%2", "%9", "%1"].filterMap fun token => Placeholder.ofToken? token.toList

/-- The tokens of the line stay apart, whatever becomes of those in front of them. -/
theorem lines_eq_substitute_crowdedText :
    ∃ variants, expand none (Template.ofText crowdedText) crowdedOrder = .ok variants ∧
      variants.map (fun variant => variant.lines[1]?) =
        ["mov 7a%a\n", "mov 7%\n", "mov 7a%xa\n", "mov 7%x\n"].map (some ·.toList) ∧
      ∀ variant ∈ variants,
        variant.lines = (Template.ofText crowdedText).lines.map (fun line =>
          if ';' ∈ line then line else substitute (valuesOf variant.choices) line) := by
  have clean : Clean (Template.ofText crowdedText) crowdedOrder := by decide
  obtain ⟨variants, h⟩ :
    ∃ variants, expand none (Template.ofText crowdedText) crowdedOrder = .ok variants := ⟨_, rfl⟩
  have hline : (expand none (Template.ofText crowdedText) crowdedOrder).map
      (List.map fun variant => variant.lines[1]?) = .ok
        (["mov 7a%a\n", "mov 7%\n", "mov 7a%xa\n", "mov 7%x\n"].map (some ·.toList)) := rfl
  rw [h] at hline
  exact ⟨variants, h, Except.ok.inj hline, fun variant hmem =>
    (lines_eq_substitute clean h variant hmem).1⟩

end AsmVariants.Proofs
