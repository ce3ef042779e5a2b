import AsmVariants.Proofs.Expansion.Annotation
import AsmVariants.Proofs.Expansion.Reorder

/-!
# `AsmVariants.Proofs.Expansion.Settled`: an output is its own only variant

Lines are settled if none of them is a site of any placeholder. Two facts about them make the
expansion idempotent:

* `expand_of_settled`: a template with settled lines expands to itself, whatever placeholders are
  listed. Tokens that stand in its comments are not filled in.
* `settled_of_expand`: when all placeholders of a clean template are expanded, the lines that come
  out are settled. Every token on an instruction line had a value put in its place, and no value
  brought a new token.

Between the two, an output is put together to one text and cut into lines again. The cut gives the
lines of the variant, apart from a last line that an empty value has left without a character
(`mem_lines_of_mem_splitLines_contents`). `expand_contents_eq_self` puts this together.
-/

set_option autoImplicit false

namespace AsmVariants.Proofs

/-- On none of the lines is a placeholder to be filled in. -/
def Settled (lines : List Text) : Prop := ∀ line ∈ lines, ∀ p : Placeholder, p.isSite line = false

/-! ### Settled templates -/

/-- A variant with settled lines has no first site, for any placeholder. -/
theorem firstSite?_of_settled {variant : Variant} (h : Settled variant.lines) (p : Placeholder) :
    variant.firstSite? p = .ok none :=
  firstSite?_eq_ok_none_iff.mpr (List.findIdx?_eq_none_iff.mpr fun line hline => h line hline p)

/-- A template with settled lines is its only variant. Only a limit of zero does not admit it. -/
theorem expand_of_settled {template : Template} (h : Settled template.lines)
    {limit : Option UInt64} (hlimit : limit ≠ some 0) (ps : List Placeholder) :
    expand limit template ps = .ok [Variant.ofTemplate template] := by
  have hone : Expansion.checkLimit limit 1 = .ok () := by
    rw [checkLimit_eq_ok_iff]
    rintro most rfl
    have hmost : most.toNat ≠ 0 := fun hzero => hlimit (congrArg some (UInt64.toNat_inj.mp hzero))
    exact Nat.one_le_iff_ne_zero.mpr hmost
  have hpasses : Expansion.passes limit ps [Variant.ofTemplate template] =
      .ok [Variant.ofTemplate template] := by
    refine passes_of_forall_none limit fun p _ variant hvariant => ?_
    rw [List.mem_singleton.mp hvariant]
    exact firstSite?_of_settled h p
  rw [expand, hone]
  exact hpasses

/-! ### The lines that come out of an expansion -/

/-- Expanding all placeholders that have a site settles the lines of a clean template. -/
theorem settled_of_expand {template : Template} {ps : List Placeholder} {limit : Option UInt64}
    {variants : List Variant} (clean : Clean template ps)
    (hall : ∀ line ∈ template.lines, ∀ p, p.isSite line → p ∈ ps)
    (h : expand limit template ps = .ok variants) :
    ∀ variant ∈ variants, Settled variant.lines := by
  intro variant hmem line hline p
  obtain ⟨-, rfl, -⟩ := (expand_eq_ok_iff_product clean).mp h
  have cleanSited : Clean template (sited template ps) := clean.mono (sited_subset template ps)
  have hfirst : variant.firstSite? p = .ok none := by
    rw [firstSite?_of_mem_product cleanSited hmem]
    split
    · rfl
    · next hp =>
      -- A placeholder that was not filled in has no site in the template to begin with.
      refine firstSite?_eq_ok_none_iff.mpr (List.findIdx?_eq_none_iff.mpr fun l hl => ?_)
      by_contra hsite
      rw [Bool.not_eq_false] at hsite
      exact hp (mem_sited_iff.mpr ⟨hall l hl p hsite, l, hl, hsite⟩)
  exact List.findIdx?_eq_none_iff.mp (firstSite?_eq_ok_none_iff.mp hfirst) line hline

/-- The lines into which the contents of a variant are cut are lines of the variant. -/
theorem mem_lines_of_mem_splitLines_contents {text : Text} {ps : List Placeholder}
    {limit : Option UInt64} {variants : List Variant}
    (h : expand limit (Template.ofText text) ps = .ok variants) {variant : Variant}
    (hmem : variant ∈ variants) :
    ∀ line ∈ Text.splitLines variant.contents, line ∈ variant.lines := by
  have hkept := (sourced_of_passes (passes_of_expand h) variant hmem).shaped.lines_kept
  have happart : LineByLine variant.lines :=
    lineByLine_of_kept (lineByLine_splitLines text) hkept
  intro line hline
  rw [Variant.contents, splitLines_flatten happart] at hline
  exact List.mem_of_mem_filter hline

/-- Each output of a clean template is its own only variant: when all placeholders of the template
have been expanded, in either order, expanding the contents of a variant for all the placeholders
that are left in them, in either order and under any limit but zero, leads to one variant with the
same contents and no choice. -/
theorem expand_contents_eq_self {text : Text} {order : PlaceholderOrder} {limit : Option UInt64}
    {variants : List Variant}
    (clean : Clean (Template.ofText text) ((Template.ofText text).placeholders order))
    (h : expand limit (Template.ofText text) ((Template.ofText text).placeholders order) =
      .ok variants) :
    ∀ variant ∈ variants, ∀ (order' : PlaceholderOrder) (limit' : Option UInt64), limit' ≠ some 0 →
      ∃ again, expand limit' (Template.ofText variant.contents)
          ((Template.ofText variant.contents).placeholders order') = .ok [again] ∧
        again.contents = variant.contents ∧ again.choices = [] := by
  intro variant hmem order' limit' hlimit
  have hall : ∀ line ∈ (Template.ofText text).lines, ∀ p, p.isSite line →
      p ∈ (Template.ofText text).placeholders order := by
    intro line hline p hsite
    rw [Placeholder.isSite, Bool.and_eq_true] at hsite
    exact mem_placeholders_iff.mpr ⟨line, hline, hsite.2⟩
  have hsettled : Settled (Template.ofText variant.contents).lines := fun line hline =>
    settled_of_expand clean hall h variant hmem line
      (mem_lines_of_mem_splitLines_contents h hmem line hline)
  exact ⟨_, expand_of_settled hsettled hlimit _, Template.toText_ofText variant.contents, rfl⟩

/-- A template with tokens in its comments, and with a last line that is one token. -/
def vanishingText : Text := "; %1=a, ; %2=x\nmov %1%2\n; %3\n%1".toList

/-- The empty value of `%1` leaves nothing of the last line, and `%3` stands in a comment only. Each
of the two outputs expands to itself, also where no more than one variant is admitted. -/
theorem expand_contents_vanishingText :
    ∃ variants, expand none (Template.ofText vanishingText)
        ((Template.ofText vanishingText).placeholders .firstSeen) = .ok variants ∧
      variants.map Variant.contents =
        ["; %1=a, ; %2=x\nmov ax\n; %3\na", "; %1=a, ; %2=x\nmov x\n; %3\n"].map String.toList ∧
      ∀ variant ∈ variants, ∃ again, expand (some 1) (Template.ofText variant.contents)
          ((Template.ofText variant.contents).placeholders .numeric) = .ok [again] ∧
        again.contents = variant.contents ∧ again.choices = [] := by
  have clean : Clean (Template.ofText vanishingText)
      ((Template.ofText vanishingText).placeholders .firstSeen) := by decide +kernel
  have hcontents : (expand none (Template.ofText vanishingText)
      ((Template.ofText vanishingText).placeholders .firstSeen)).map (List.map Variant.contents) =
      .ok (["; %1=a, ; %2=x\nmov ax\n; %3\na", "; %1=a, ; %2=x\nmov x\n; %3\n"].map
        String.toList) := by decide +kernel
  obtain ⟨variants, h, hvariants⟩ := map_eq_ok_iff.mp hcontents
  have hlimit : some 1 ≠ some (0 : UInt64) := by decide
  exact ⟨variants, h, hvariants, fun variant hmem =>
    expand_contents_eq_self clean h variant hmem .numeric (some 1) hlimit⟩

end AsmVariants.Proofs
