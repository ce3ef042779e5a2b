import AsmVariants.Proofs.Expansion.LineShape

/-!
# `AsmVariants.Proofs.Expansion.Annotation`: candidates come from comments of the template

A pass reads the candidates for a placeholder off the variant that it has before it, in which
earlier passes have rewritten lines. Nothing in `Candidates.onLine?` asks for a semicolon, so a
line `x %1=a,b` would do. This module shows that such a line is never asked: the line that is read
is a comment of the template.

Say the first site is on line `index`. The line above it is not a site. If it had no semicolon, it
would list nothing, since a line without a semicolon that lists something for a placeholder is a
site of it (`onLine?_eq_none_of_isSite`). So it is a comment, and a comment is kept as the template
has it (`Kept`). `annotated_of_site` is this argument, `sourced_step` the step with it and
`sourced_of_passes` the run. `candidates_annotated` states it for every set on the way and for every
choice that is recorded, whatever the candidates are.
-/

set_option autoImplicit false

namespace AsmVariants.Proofs

open Expansion (passes)

/-- In these lines, the candidates for the placeholder stand in a comment directly above the line at
the index, which is an instruction. -/
def Annotated (lines : List Text) (p : Placeholder) (index : Nat) (candidates : List Text) : Prop :=
  ∃ above annotation line, index = above + 1 ∧
    lines[above]? = some annotation ∧ lines[above + 1]? = some line ∧
    ';' ∈ annotation ∧ ';' ∉ line ∧ Candidates.onLine? p annotation = some candidates

/-- A variant has the shape of the template, and each of its choices picks one of the candidates
that stand in a comment of the template. -/
structure Sourced (lines : List Text) (variant : Variant) : Prop where
  shaped : Shaped lines variant
  annotated : ∀ choice ∈ variant.choices, ∃ index candidates,
    Annotated lines choice.placeholder index candidates ∧
      candidates[choice.index]? = some choice.value

/-- What stands above the first site of kept lines stands in a comment of the template. -/
theorem annotated_of_site {p : Placeholder} {lines filled : List Text} {index : Nat}
    {candidates : List Text} (hlines : List.Forall₂ Kept lines filled)
    (hfirst : filled.findIdx? p.isSite = some index)
    (hlisted : Candidates.above? p filled index = some candidates) :
    Annotated lines p index candidates := by
  obtain ⟨hindex, hsite, hbefore⟩ := List.findIdx?_eq_some_iff_getElem.mp hfirst
  obtain ⟨above, annotation, rfl, hannotation, honLine⟩ := above?_eq_some_iff.mp hlisted
  obtain ⟨habove, rfl⟩ := List.getElem?_eq_some_iff.mp hannotation
  have hlineIndex : above + 1 < lines.length := hlines.length_eq ▸ hindex
  have hlineAbove : above < lines.length := hlines.length_eq ▸ habove
  have hkept : Kept lines[above + 1] filled[above + 1] := hlines.get hlineIndex hindex
  have hkeptAbove : Kept lines[above] filled[above] := hlines.get hlineAbove habove
  have hinstruction : ';' ∉ filled[above + 1] := by
    rw [Placeholder.isSite, Bool.and_eq_true] at hsite
    exact isInstruction_iff.mp hsite.1
  have hline : ';' ∉ lines[above + 1] := by
    -- A comment would have been kept, with its semicolon.
    intro hmem
    exact hinstruction (hkept.comment hmem ▸ hmem)
  have hnotSite : p.isSite filled[above] = false := by
    simpa using hbefore above (Nat.lt_succ_self above)
  have hcomment : ';' ∈ lines[above] := by
    -- An instruction stays one, and it would be a site if it listed anything.
    by_contra hmem
    have hnone := onLine?_eq_none_of_isSite (hkeptAbove.instruction hmem) hnotSite
    rw [hnone] at honLine
    cases honLine
  -- A comment is kept as it is, so it lists for the variant what it lists in the template.
  rw [hkeptAbove.comment hcomment] at honLine
  exact ⟨above, _, _, rfl, List.getElem?_eq_getElem _, List.getElem?_eq_getElem _, hcomment, hline,
    honLine⟩

/-- The template itself has its own shape, and no choices yet. -/
theorem sourced_ofTemplate (text : Text) :
    Sourced (Template.ofText text).lines (Variant.ofTemplate (Template.ofText text)) where
  shaped := shaped_ofTemplate text
  annotated _ h := nomatch h

/-- A step reads what it chooses from off a comment of the template. -/
theorem sourced_step {lines : List Text} {p : Placeholder} {before after : Variant}
    (h : Sourced lines before) (hstep : Step p before after) : Sourced lines after := by
  refine ⟨shaped_step h.shaped hstep, ?_⟩
  cases hstep with
  | keep => exact h.annotated
  | @choose index candidates choice hfirst hlisted hplaceholder hpicked =>
    -- Only the new choice is traced back. Its candidates stand above the first site of kept lines.
    have hannotated : Annotated lines choice.placeholder index candidates := by
      rw [hplaceholder]
      exact annotated_of_site h.shaped.lines_kept hfirst hlisted
    intro c hc
    rcases List.mem_append.mp hc with hc | hc
    · exact h.annotated c hc
    · obtain rfl : c = choice := List.mem_singleton.mp hc
      exact ⟨index, candidates, hannotated, hpicked⟩

/-- All variants that a run of passes makes take their choices from comments of the template. -/
theorem sourced_of_passes {text : Text} {ps : List Placeholder} {limit : Option UInt64}
    {variants : List Variant}
    (h : passes limit ps [Variant.ofTemplate (Template.ofText text)] = .ok variants) :
    ∀ variant ∈ variants, Sourced (Template.ofText text).lines variant := by
  refine passes_induction h (fun start hstart => ?_) fun p _ before after => sourced_step
  rw [List.mem_singleton.mp hstart]
  exact sourced_ofTemplate text

/-- In every set that the passes go through, a first site has its candidates from a comment of the
template that stands directly above an instruction of the template. So every value that is recorded
in an expansion is the candidate at the recorded index in such a comment. -/
theorem candidates_annotated (text : Text) (ps : List Placeholder) (limit : Option UInt64) :
    (∀ count variants,
      passes limit (ps.take count) [Variant.ofTemplate (Template.ofText text)] = .ok variants →
      ∀ variant ∈ variants, ∀ p site, variant.firstSite? p = .ok (some site) →
        Annotated (Template.ofText text).lines p site.index site.candidates) ∧
    ∀ variants, expand limit (Template.ofText text) ps = .ok variants →
      ∀ variant ∈ variants, ∀ choice ∈ variant.choices, ∃ index candidates,
        Annotated (Template.ofText text).lines choice.placeholder index candidates ∧
          candidates[choice.index]? = some choice.value := by
  constructor
  · intro count variants h variant hmem p site hsite
    obtain ⟨hfirst, hlisted⟩ := firstSite?_eq_ok_some_iff.mp hsite
    exact annotated_of_site (sourced_of_passes h variant hmem).shaped.lines_kept hfirst hlisted
  · intro variants h variant hmem
    exact (sourced_of_passes (passes_of_expand h) variant hmem).annotated

/-- A template in which the value of `%1` is the token `%2` with an equals sign and a list behind
it, so that the line it is put into looks like an annotation and comes before the site that `%2` has
in the template. -/
def disguisedText : Text := "; %1=%2=c\nmov %1\n; %2=a,b\nadd %2\n".toList

/-- Its placeholders. -/
def disguisedOrder : List Placeholder :=
  ["%1", "%2"].filterMap fun token => Placeholder.ofToken? token.toList

/-- The first site of `%2` moves up to the rewritten line. Its candidates still come from a comment,
the one above that line. -/
theorem candidates_annotated_disguisedText :
    ∃ variants, expand none (Template.ofText disguisedText) disguisedOrder = .ok variants ∧
      variants.map Variant.contents = ["; %1=%2=c\nmov c=c\n; %2=a,b\nadd c\n".toList] ∧
      ∀ variant ∈ variants, ∀ choice ∈ variant.choices, ∃ index candidates,
        Annotated (Template.ofText disguisedText).lines choice.placeholder index candidates ∧
          candidates[choice.index]? = some choice.value := by
  have hcontents : (expand none (Template.ofText disguisedText) disguisedOrder).map
      (List.map Variant.contents) = .ok ["; %1=%2=c\nmov c=c\n; %2=a,b\nadd c\n".toList] := rfl
  obtain ⟨variants, h, hvariants⟩ := map_eq_ok_iff.mp hcontents
  exact ⟨variants, h, hvariants, (candidates_annotated _ _ none).2 variants h⟩

end AsmVariants.Proofs
