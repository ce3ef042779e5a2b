import AsmVariants.Proofs.Expansion.Limit
import AsmVariants.Proofs.Expansion.Product
import AsmVariants.Proofs.Template
import Mathlib.Data.Multiset.Sections

/-!
# `AsmVariants.Proofs.Expansion.Reorder`: the order of the placeholders only numbers the variants

Expanding the placeholders of a clean template in another order gives the same variants at other
positions, each with its choices in another order. Both runs lead to a product, so nothing is said
here about two passes in a row. What is needed of a product is that it does not depend on the order
of its factors, and Mathlib's `Multiset.Sections` is such a product (`coe_fanOut`). The contents of
a variant do not depend on the order of its choices either, since each placeholder is chosen for
once (`valuesOf_perm`).

A limit is compared with different sizes on the way. It admits the sets on the way if it admits the
last one (`expand_eq_ok_iff`), and that has the same size in both runs.

`expand_perm` is the main statement.
-/

set_option autoImplicit false

namespace AsmVariants

/-- The contents of a variant, and its choices without their order. -/
def Variant.unordered (variant : Variant) : Text × Multiset Choice :=
  (variant.contents, variant.choices)

namespace Proofs

/-! ### The factors of a product in another order -/

/-- A fan-out is the product of its lists, if no order is looked at. -/
theorem coe_fanOut {α : Type} (ls : List (List α)) :
    (((fanOut ls).map Multiset.ofList : List (Multiset α)) : Multiset (Multiset α)) =
      Multiset.Sections (ls.map Multiset.ofList : List (Multiset α)) := by
  induction ls with
  | nil => rfl
  | cons l ls ih =>
    rw [List.map_cons, ← Multiset.cons_coe, Multiset.sections_cons, ← ih, fanOut, List.map_flatMap,
      ← Multiset.coe_bind]
    -- A list with its first member in front is that member added to the rest of them.
    refine Multiset.bind_congr fun a _ => ?_
    rw [Multiset.map_coe, List.map_map, List.map_map]
    rfl

/-- The order of the lists does not matter to a fan-out, if no order is looked at in it. -/
theorem perm_fanOut {α : Type} {ls ls' : List (List α)} (h : ls.Perm ls') :
    ((fanOut ls).map Multiset.ofList).Perm ((fanOut ls').map Multiset.ofList) := by
  have hfactors := h.map Multiset.ofList
  rw [← Multiset.coe_eq_coe] at hfactors ⊢
  rw [coe_fanOut, coe_fanOut, hfactors]

/-! ### The choices of a variant in another order -/

/-- Where no placeholder is chosen for twice, its value is that of the one choice for it. -/
theorem valuesOf_eq_some_iff {choices : List Choice} {p : Placeholder} {value : Text}
    (hnodup : (choices.map Choice.placeholder).Nodup) :
    valuesOf choices p = some value ↔
      ∃ choice ∈ choices, choice.placeholder = p ∧ choice.value = value := by
  constructor
  · exact exists_mem_of_valuesOf
  · rintro ⟨choice, hmem, rfl, rfl⟩
    cases hfound : valuesOf choices choice.placeholder with
    | none => exact absurd (List.mem_map_of_mem hmem) (valuesOf_eq_none_iff.mp hfound)
    | some value =>
      -- The value is that of some choice for the placeholder, and there is only this one.
      obtain ⟨other, hother, hplaceholder, rfl⟩ := exists_mem_of_valuesOf hfound
      rw [List.inj_on_of_nodup_map hnodup hother hmem hplaceholder]

/-- The order of the choices does not matter to their values, if no placeholder is chosen for twice.
-/
theorem valuesOf_perm {choices choices' : List Choice} (h : choices.Perm choices')
    (hnodup : (choices.map Choice.placeholder).Nodup) : valuesOf choices = valuesOf choices' := by
  have hnodup' : (choices'.map Choice.placeholder).Nodup :=
    (h.map Choice.placeholder).nodup_iff.mp hnodup
  funext p
  ext value
  rw [valuesOf_eq_some_iff hnodup, valuesOf_eq_some_iff hnodup']
  simp only [h.mem_iff]

section

variable {template : Template} {qs qs' : List Placeholder}

/-- The contents follow from the choices without their order. -/
theorem unordered_filled (template : Template) {choices : List Choice}
    (hnodup : (choices.map Choice.placeholder).Nodup) :
    (filled template choices).unordered =
      ((filled template (choices : Multiset Choice).toList).contents,
        (choices : Multiset Choice)) := by
  have hperm : choices.Perm (choices : Multiset Choice).toList :=
    Multiset.coe_eq_coe.mp (Multiset.coe_toList _).symm
  have hfill : fillAll choices = fillAll (choices : Multiset Choice).toList := by
    funext line
    rw [fillAll, fillAll, valuesOf_perm hperm hnodup]
  rw [Variant.unordered, Variant.contents, Variant.contents, filled, filled, hfill]

/-- A product has the same variants whatever the order of its placeholders. -/
theorem perm_product (h : qs.Perm qs') (hnodup : qs.Nodup) :
    ((product template qs).map Variant.unordered).Perm
      ((product template qs').map Variant.unordered) := by
  -- Both products are maps of the lists of choices, and the maps do not look at their order.
  have hunordered : ∀ {rs : List Placeholder}, rs.Nodup →
      (product template rs).map Variant.unordered =
        ((choiceLists template rs).map Multiset.ofList).map fun choices =>
          ((filled template choices.toList).contents, choices) := by
    intro rs hrs
    rw [product, List.map_map, List.map_map]
    refine List.map_congr_left fun choices hchoices => unordered_filled template ?_
    rw [(mem_choiceLists_iff.mp hchoices).2]
    exact hrs
  rw [hunordered hnodup, hunordered (h.nodup_iff.mp hnodup)]
  exact (perm_fanOut (h.map (choicesFor template))).map _

/-! ### Expansions in another order -/

/-- Lists with the same members ask for the same placeholders, in some order. -/
theorem perm_sited (template : Template) {ps ps' : List Placeholder}
    (h : ∀ p, p ∈ ps ↔ p ∈ ps') : (sited template ps).Perm (sited template ps') := by
  refine (List.perm_ext_iff_of_nodup (nodup_sited template ps) (nodup_sited template ps')).mpr ?_
  intro p
  rw [mem_sited_iff, mem_sited_iff, h p]

/-- The expansion of a clean template succeeds if candidates govern every placeholder that has a
site and the limit admits the product. It leads to the product. -/
theorem expand_eq_ok_iff_product {limit : Option UInt64} {ps : List Placeholder}
    {variants : List Variant} (clean : Clean template ps) :
    expand limit template ps = .ok variants ↔
      (∀ q ∈ sited template ps, (governing? template q).isSome) ∧
        variants = product template (sited template ps) ∧
        Admits limit (product template (sited template ps)).length := by
  have hnone : expand none template ps = .ok variants ↔
      (∀ q ∈ sited template ps, (governing? template q).isSome) ∧
        variants = product template (sited template ps) := passes_eq_ok_iff clean
  rw [expand_eq_ok_iff, hnone, and_assoc]
  refine and_congr_right fun _ => and_congr_right fun hproduct => ?_
  rw [hproduct]

/-- Whether the expansion of a clean template succeeds does not depend on the order of the
placeholders. -/
theorem exists_expand_eq_ok_of_perm {limit : Option UInt64} {ps ps' : List Placeholder}
    (clean : Clean template ps) (hsame : ∀ p, p ∈ ps ↔ p ∈ ps')
    (h : ∃ variants, expand limit template ps = .ok variants) :
    ∃ variants, expand limit template ps' = .ok variants := by
  have hsited : (sited template ps).Perm (sited template ps') := perm_sited template hsame
  have clean' : Clean template ps' := clean.mono fun p => (hsame p).mpr
  obtain ⟨variants, h⟩ := h
  obtain ⟨hgoverned, -, hadmits⟩ := (expand_eq_ok_iff_product clean).mp h
  refine ⟨_, (expand_eq_ok_iff_product clean').mpr ⟨fun q hq => ?_, rfl, ?_⟩⟩
  · exact hgoverned q (hsited.mem_iff.mpr hq)
  · -- The limit looks at nothing but the size, and both products have the same.
    have hproduct : ((product template (sited template ps)).map Variant.unordered).Perm
        ((product template (sited template ps')).map Variant.unordered) :=
      perm_product hsited (nodup_sited template ps)
    have hlength := hproduct.length_eq
    rw [List.length_map, List.length_map] at hlength
    rwa [← hlength]

end

/-- Two lists of the same placeholders, such as those of a template in its two orders, expand a
clean template to the same variants at other positions, each with its choices in another order. If
one of the expansions succeeds, so does the other, under any limit. -/
theorem expand_perm {template : Template} {ps ps' : List Placeholder} (limit : Option UInt64)
    (clean : Clean template ps) (hsame : ∀ p, p ∈ ps ↔ p ∈ ps') :
    ((∃ variants, expand limit template ps = .ok variants) ↔
      ∃ variants, expand limit template ps' = .ok variants) ∧
    (∀ variants variants', expand limit template ps = .ok variants →
      expand limit template ps' = .ok variants' →
        (variants.map Variant.unordered).Perm (variants'.map Variant.unordered)) ∧
    ∀ (order order' : PlaceholderOrder) (p : Placeholder),
      p ∈ template.placeholders order ↔ p ∈ template.placeholders order' := by
  have clean' : Clean template ps' := clean.mono fun p => (hsame p).mpr
  refine ⟨⟨exists_expand_eq_ok_of_perm clean hsame,
    exists_expand_eq_ok_of_perm clean' fun p => (hsame p).symm⟩, ?_, ?_⟩
  · intro variants variants' h h'
    obtain ⟨-, rfl, -⟩ := (expand_eq_ok_iff_product clean).mp h
    obtain ⟨-, rfl, -⟩ := (expand_eq_ok_iff_product clean').mp h'
    exact perm_product (perm_sited template hsame) (nodup_sited template ps)
  · intro order order' p
    exact (perm_arrange order _).mem_iff.trans (perm_arrange order' _).mem_iff.symm

/-- A template in which the placeholder with the greater number is seen first, and stands next to
the other one, which has an empty candidate. -/
def adjoiningText : Text := "; %10=a,b ; %2=x,\nmov %10%2,%2\n".toList

/-- Its placeholders as they are seen. -/
def seenOrder : List Placeholder :=
  ["%10", "%2"].filterMap fun token => Placeholder.ofToken? token.toList

/-- Its placeholders by number, with one listed twice. -/
def numberedOrder : List Placeholder :=
  ["%2", "%10", "%2"].filterMap fun token => Placeholder.ofToken? token.toList

/-- The four variants stand at other positions, and four is just within the limit. -/
theorem expand_perm_adjoiningText :
    ∃ variants variants',
      expand (some 4) (Template.ofText adjoiningText) seenOrder = .ok variants ∧
      expand (some 4) (Template.ofText adjoiningText) numberedOrder = .ok variants' ∧
      variants.map (fun variant => variant.lines[1]?) =
        ["mov ax,x\n", "mov a,\n", "mov bx,x\n", "mov b,\n"].map (some ·.toList) ∧
      variants'.map (fun variant => variant.lines[1]?) =
        ["mov ax,x\n", "mov bx,x\n", "mov a,\n", "mov b,\n"].map (some ·.toList) ∧
      (variants.map Variant.unordered).Perm (variants'.map Variant.unordered) := by
  have clean : Clean (Template.ofText adjoiningText) seenOrder := by decide
  have hseen : ∀ p ∈ seenOrder, p ∈ numberedOrder := by decide
  have hnumbered : ∀ p ∈ numberedOrder, p ∈ seenOrder := by decide
  have hsame : ∀ p, p ∈ seenOrder ↔ p ∈ numberedOrder := fun p => ⟨hseen p, hnumbered p⟩
  have hline : (expand (some 4) (Template.ofText adjoiningText) seenOrder).map
      (List.map fun variant => variant.lines[1]?) = .ok
        (["mov ax,x\n", "mov a,\n", "mov bx,x\n", "mov b,\n"].map (some ·.toList)) := rfl
  have hline' : (expand (some 4) (Template.ofText adjoiningText) numberedOrder).map
      (List.map fun variant => variant.lines[1]?) = .ok
        (["mov ax,x\n", "mov bx,x\n", "mov a,\n", "mov b,\n"].map (some ·.toList)) := rfl
  obtain ⟨variants, h, hvariants⟩ := map_eq_ok_iff.mp hline
  obtain ⟨variants', h', hvariants'⟩ := map_eq_ok_iff.mp hline'
  exact ⟨variants, variants', h, h', hvariants, hvariants',
    (expand_perm (some 4) clean hsame).2.1 variants variants' h h'⟩

end Proofs

end AsmVariants
