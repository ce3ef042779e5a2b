import AsmVariants.Proofs.Expansion.Clean
import AsmVariants.Proofs.List
import Mathlib.Algebra.Group.Nat.Defs
import Mathlib.Data.List.Nodup

/-!
# `AsmVariants.Proofs.Expansion.Product`: a clean template expands to a product

The passes over a clean template multiply out the candidates of its placeholders. `choiceLists`
has all lists of choices, in which the choice for the last placeholder varies fastest, and
`product` has the variant for each of them.

* `pass_product_settled`, `pass_product_unresolved` and `pass_product_governed`: what a pass makes
  of a product. It keeps it, fails, or appends a choice to each list.
* `passes_eq_ok_iff`: a run of passes leads to the product for the placeholders that have a site,
  and only if candidates govern each of them.

The induction is on the placeholders from the end: the last pass meets the product that the others
have led to. Which placeholders are in it, and in which order, is `sited`, a list that can be read
off the template before any pass.
-/

set_option autoImplicit false

namespace AsmVariants.Proofs

open Expansion (passes checkLimit)

/-- The lists that take one member from each of some lists. The last member varies fastest. -/
def fanOut {α : Type} : List (List α) → List (List α)
  | [] => [[]]
  | l :: ls => l.flatMap fun a => (fanOut ls).map (a :: ·)

/-- One more list appends each of its members to each of the lists. -/
theorem fanOut_concat {α : Type} (ls : List (List α)) (l : List α) :
    fanOut (ls ++ [l]) = (fanOut ls).flatMap fun as => l.map fun a => as ++ [a] := by
  induction ls with
  | nil => simp [fanOut, List.map_eq_flatMap]
  | cons l' ls ih =>
    rw [List.cons_append, fanOut, fanOut, ih, List.flatMap_assoc]
    refine List.flatMap_congr fun a _ => ?_
    rw [List.map_flatMap, List.flatMap_map]
    simp only [List.map_map, List.cons_append, Function.comp_def]

/-- The lists of a fan-out are those that take a member of each list, in order. -/
theorem mem_fanOut_iff {α : Type} {ls : List (List α)} {as : List α} :
    as ∈ fanOut ls ↔ List.Forall₂ (fun a l => a ∈ l) as ls := by
  induction ls generalizing as with
  | nil => simp [fanOut]
  | cons l ls ih =>
    simp only [fanOut, List.mem_flatMap, List.mem_map, List.forall₂_cons_right_iff, ih]
    constructor
    · rintro ⟨a, ha, as', has, rfl⟩
      exact ⟨a, as', ha, has, rfl⟩
    · rintro ⟨a, as', ha, has, rfl⟩
      exact ⟨a, ha, as', has, rfl⟩

/-- A fan-out is as large as the product of the sizes of its lists. -/
theorem length_fanOut {α : Type} (ls : List (List α)) :
    (fanOut ls).length = (ls.map List.length).prod := by
  induction ls with
  | nil => rfl
  | cons l ls ih => simp [fanOut, ih]

/-! ### Choices

A choice is made among the candidates that govern its placeholder. A list of choices has one for
each placeholder that is asked for, in this order. -/

/-- The placeholders that a template asks for: those that have a site, each of them once, in the
order in which they are first listed. -/
def sited (template : Template) (ps : List Placeholder) : List Placeholder :=
  ps.eraseDups.filter fun p => template.lines.any p.isSite

/-- The choices that can be made for a placeholder, one for each candidate that governs it. -/
def choicesFor (template : Template) (p : Placeholder) : List Choice :=
  ((governing? template p).getD []).zipIdx.map fun candidate => ⟨p, candidate.2, candidate.1⟩

/-- The lists of choices for some placeholders. -/
def choiceLists (template : Template) (qs : List Placeholder) : List (List Choice) :=
  fanOut (qs.map (choicesFor template))

/-- The variants that come of all choices for some placeholders. -/
def product (template : Template) (qs : List Placeholder) : List Variant :=
  (choiceLists template qs).map (filled template)

section

variable {template : Template} {ps qs : List Placeholder} {p : Placeholder}

/-- The placeholders that are asked for are the listed ones that have a site. -/
theorem mem_sited_iff :
    p ∈ sited template ps ↔ p ∈ ps ∧ ∃ line ∈ template.lines, p.isSite line := by
  rw [sited, List.mem_filter, List.mem_eraseDups, List.any_eq_true]

/-- Only listed placeholders are asked for. -/
theorem sited_subset (template : Template) (ps : List Placeholder) : sited template ps ⊆ ps :=
  fun _ hp => (mem_sited_iff.mp hp).1

/-- A placeholder that is listed last is asked for if it is new and has a site. -/
theorem sited_concat (template : Template) (ps : List Placeholder) (p : Placeholder) :
    sited template (ps ++ [p]) =
      if p ∈ sited template ps ∨ ¬ template.lines.any p.isSite then sited template ps
      else sited template ps ++ [p] := by
  by_cases hsite : template.lines.any p.isSite
  · -- With a site, the placeholder is asked for already if it was listed before.
    have hmem : p ∈ sited template ps ↔ p ∈ ps := by
      rw [sited, List.mem_filter, List.mem_eraseDups]
      exact and_iff_left hsite
    simp only [hmem, hsite, not_true_eq_false, or_false]
    rw [sited, eraseDups_concat]
    split
    · rfl
    · simp [hsite, sited]
  · -- Without one it is left out, be it new or not.
    rw [if_pos (Or.inr hsite), sited, eraseDups_concat]
    split
    · rfl
    · simp [hsite, sited]

/-- Each placeholder is asked for once, however often it is listed. -/
theorem nodup_sited (template : Template) (ps : List Placeholder) :
    (sited template ps).Nodup :=
  (nodup_eraseDups ps).filter _

/-- A choice that can be made for a placeholder picks one of the candidates that govern it. -/
theorem mem_choicesFor_iff {choice : Choice} :
    choice ∈ choicesFor template p ↔ choice.placeholder = p ∧
      ∃ candidates ∈ governing? template p, candidates[choice.index]? = some choice.value := by
  rw [choicesFor, List.mem_map]
  cases hgoverning : governing? template p with
  | none => simp
  | some candidates =>
    simp only [Option.getD_some, Option.mem_some_iff, exists_eq_left']
    constructor
    · rintro ⟨⟨value, index⟩, hmem, rfl⟩
      exact ⟨rfl, List.mem_zipIdx_iff_getElem?.mp hmem⟩
    · rintro ⟨rfl, hvalue⟩
      exact ⟨(choice.value, choice.index), List.mem_zipIdx_iff_getElem?.mpr hvalue, rfl⟩

/-- A list of choices has one choice for each of the placeholders, and each can be made. -/
theorem mem_choiceLists_iff {choices : List Choice} :
    choices ∈ choiceLists template qs ↔
      (∀ choice ∈ choices, choice ∈ choicesFor template choice.placeholder) ∧
        choices.map Choice.placeholder = qs := by
  -- A choice names its placeholder, so the condition on the pair is one on the choice alone.
  have hmade : (fun choice q => choice ∈ choicesFor template q) = fun choice q =>
      choice ∈ choicesFor template choice.placeholder ∧ choice.placeholder = q := by
    funext choice q
    refine propext ⟨fun h => ?_, ?_⟩
    · obtain rfl := (mem_choicesFor_iff.mp h).1
      exact ⟨h, rfl⟩
    · rintro ⟨h, rfl⟩
      exact h
  rw [choiceLists, mem_fanOut_iff, List.forall₂_map_right_iff, hmade, List.forall₂_and_left,
    ← List.forall₂_map_left_iff (R := Eq), List.forall₂_eq_eq_eq]

/-- The values of such a list of choices are candidates that the template lists. -/
theorem picked_of_mem_choiceLists {choices : List Choice}
    (h : choices ∈ choiceLists template qs) : Picked template qs choices := by
  obtain ⟨hmade, rfl⟩ := mem_choiceLists_iff.mp h
  intro choice hmem
  obtain ⟨-, candidates, hgoverning, hvalue⟩ := mem_choicesFor_iff.mp (hmade choice hmem)
  exact ⟨List.mem_map_of_mem hmem, candidates, hgoverning, List.mem_of_getElem? hvalue⟩

/-- The placeholders that have a value are those for which choices were made. -/
theorem isNone_valuesOf_of_mem_choiceLists {choices : List Choice}
    (h : choices ∈ choiceLists template qs) : (valuesOf choices p).isNone ↔ p ∉ qs := by
  rw [Option.isNone_iff_eq_none, valuesOf_eq_none_iff, (mem_choiceLists_iff.mp h).2]

/-- A product of governed placeholders is not empty, since no list of candidates is. -/
theorem product_ne_nil (h : ∀ q ∈ qs, (governing? template q).isSome) :
    product template qs ≠ [] := by
  rw [← List.length_pos_iff, product, List.length_map, choiceLists, length_fanOut,
    List.prod_pos_iff_forall_pos_nat, List.map_map]
  intro count hcount
  obtain ⟨q, hq, rfl⟩ := List.mem_map.mp hcount
  obtain ⟨candidates, hgoverning⟩ := Option.isSome_iff_exists.mp (h q hq)
  obtain ⟨line, hline⟩ := exists_onLine?_of_governing? hgoverning
  show 0 < (choicesFor template q).length
  rw [choicesFor, hgoverning, Option.getD_some, List.length_map, List.length_zipIdx]
  exact List.length_pos_iff.mpr (onLine?_ne_nil hline)

/-- One more governed placeholder multiplies the size of the product by the number of its
candidates. -/
theorem length_product_concat {candidates : List Text}
    (h : governing? template p = some candidates) :
    (product template (qs ++ [p])).length = (product template qs).length * candidates.length := by
  have hchoices : (choicesFor template p).length = candidates.length := by
    rw [choicesFor, h, Option.getD_some, List.length_map, List.length_zipIdx]
  rw [product, product, List.length_map, List.length_map, choiceLists, choiceLists, length_fanOut,
    length_fanOut, List.map_append, List.map_append, List.prod_append, List.map_singleton,
    List.map_singleton, List.prod_singleton, hchoices]

/-! ### Passes over a product

All variants of a product have the same first site, since it is the one in the template. So a pass
treats them all in the same way. -/

/-- The product for no placeholders is the template itself. -/
theorem product_nil (template : Template) :
    product template [] = [Variant.ofTemplate template] := by
  rw [product, choiceLists, List.map_nil, fanOut, List.map_singleton, filled_nil]

/-- All variants of a product have the first site that the template has, or none if the placeholder
is filled in already. -/
theorem firstSite?_of_mem_product (clean : Clean template qs) {variant : Variant}
    (h : variant ∈ product template qs) :
    variant.firstSite? p =
      if p ∈ qs then .ok none else (Variant.ofTemplate template).firstSite? p := by
  obtain ⟨choices, hchoices, rfl⟩ := List.mem_map.mp h
  rw [firstSite?_filled clean (picked_of_mem_choiceLists hchoices)]
  by_cases hp : p ∈ qs
  · rw [if_pos hp, if_neg fun hnone => (isNone_valuesOf_of_mem_choiceLists hchoices).mp hnone hp]
  · rw [if_neg hp, if_pos ((isNone_valuesOf_of_mem_choiceLists hchoices).mpr hp)]

/-- A pass keeps the product if the placeholder is filled in already or has no site. -/
theorem pass_product_settled (limit : Option UInt64) (clean : Clean template qs)
    (h : p ∈ qs ∨ ¬ template.lines.any p.isSite) :
    Expansion.pass limit p (product template qs) = .ok (product template qs) := by
  refine pass_of_forall_none limit fun variant hmem => ?_
  rw [firstSite?_of_mem_product clean hmem]
  split
  · rfl
  · next hp =>
    -- The placeholder is not filled in, so it has no site to begin with.
    have hsite : ∀ line ∈ template.lines, p.isSite line = false := by
      simpa using h.resolve_left hp
    exact firstSite?_eq_ok_none_iff.mpr (List.findIdx?_eq_none_iff.mpr hsite)

/-- A pass fails at a placeholder that is new, has a site and is governed by no candidates. The
error names the line of the template. -/
theorem pass_product_unresolved (limit : Option UInt64) (clean : Clean template qs)
    (hqs : ∀ q ∈ qs, (governing? template q).isSome) (hp : p ∉ qs) {index : Nat}
    (hfirst : template.lines.findIdx? p.isSite = some index)
    (hgoverning : governing? template p = none) :
    Expansion.pass limit p (product template qs) = .error (.unresolved p (index + 1)) := by
  refine pass_of_forall_error limit (product_ne_nil hqs) fun variant hmem => ?_
  rw [firstSite?_of_mem_product clean hmem, if_neg hp]
  rw [governing?, hfirst, Option.bind_some] at hgoverning
  exact firstSite?_eq_error hfirst hgoverning

/-- A pass for a placeholder that is new and governed leads to the product with that placeholder,
if the limit admits it. -/
theorem pass_product_governed (limit : Option UInt64) (clean : Clean template qs)
    (hqs : ∀ q ∈ qs, (governing? template q).isSome) (hp : p ∉ qs) {candidates : List Text}
    (hgoverning : governing? template p = some candidates) :
    Expansion.pass limit p (product template qs) =
      checkLimit limit (min (product template (qs ++ [p])).length Expansion.largestCount) >>=
        fun _ => .ok (product template (qs ++ [p])) := by
  obtain ⟨index, hfirst, habove⟩ := Option.bind_eq_some_iff.mp hgoverning
  have hsite : (Variant.ofTemplate template).firstSite? p = .ok (some ⟨index, candidates⟩) :=
    firstSite?_eq_ok_some_iff.mpr ⟨hfirst, habove⟩
  -- Each list of choices is continued by each choice for the placeholder, which is the product
  -- with one more list.
  have hbranches : (product template qs).flatMap (fun variant =>
      candidates.zipIdx.map fun candidate => withChoice variant ⟨p, candidate.2, candidate.1⟩) =
      product template (qs ++ [p]) := by
    rw [product, product, choiceLists, choiceLists, List.map_append, List.map_singleton,
      fanOut_concat, List.flatMap_map, List.map_flatMap]
    refine List.flatMap_congr fun choices hchoices => ?_
    rw [choicesFor, hgoverning, Option.getD_some, List.map_map, List.map_map]
    refine List.map_congr_left fun candidate _ => ?_
    exact withChoice_filled clean (picked_of_mem_choiceLists hchoices)
      (Option.isNone_iff_eq_none.mp ((isNone_valuesOf_of_mem_choiceLists hchoices).mpr hp))
  have hfound : ∀ variant ∈ product template qs,
      variant.firstSite? p = .ok (some ⟨index, candidates⟩) := by
    intro variant hmem
    rw [firstSite?_of_mem_product clean hmem, if_neg hp, hsite]
  rw [pass_of_forall_some limit (product_ne_nil hqs) hfound, hbranches,
    length_product_concat hgoverning]

end

/-- The last pass comes after the others. -/
theorem passes_concat (limit : Option UInt64) (ps : List Placeholder) (p : Placeholder)
    (variants : List Variant) :
    passes limit (ps ++ [p]) variants = passes limit ps variants >>= Expansion.pass limit p := by
  rw [passes, List.foldlM_append]
  refine bind_congr fun after => ?_
  exact bind_pure (Expansion.pass limit p after)

/-- One more pass succeeds exactly if candidates govern the placeholder or it needs none. It leads
to the product that takes the placeholder in. -/
theorem pass_product_eq_ok_iff {template : Template} {ps : List Placeholder} {p : Placeholder}
    {variants : List Variant} (clean : Clean template (sited template ps))
    (hqs : ∀ q ∈ sited template ps, (governing? template q).isSome) :
    Expansion.pass none p (product template (sited template ps)) = .ok variants ↔
      (∀ q ∈ sited template (ps ++ [p]), (governing? template q).isSome) ∧
        variants = product template (sited template (ps ++ [p])) := by
  rw [sited_concat]
  by_cases hsettled : p ∈ sited template ps ∨ ¬ template.lines.any p.isSite
  · rw [if_pos hsettled, pass_product_settled none clean hsettled, Except.ok.injEq]
    exact ⟨fun h => ⟨hqs, h.symm⟩, fun h => h.2.symm⟩
  · rw [if_neg hsettled]
    rw [not_or, not_not] at hsettled
    cases hgoverning : governing? template p with
    | none =>
      obtain ⟨index, hfirst⟩ :=
        Option.isSome_iff_exists.mp (List.findIdx?_isSome.trans hsettled.2)
      -- Both sides fail: the placeholder is asked for, and nothing governs it.
      rw [pass_product_unresolved none clean hqs hsettled.1 hfirst hgoverning]
      simp [hgoverning]
    | some candidates =>
      rw [pass_product_governed none clean hqs hsettled.1 hgoverning]
      show Except.ok _ = Except.ok variants ↔ _
      rw [Except.ok.injEq]
      constructor
      · rintro rfl
        -- The placeholders asked for now are those of before and the new one.
        refine ⟨fun q hq => ?_, rfl⟩
        rcases List.mem_append.mp hq with hq | hq
        · exact hqs q hq
        · rw [List.mem_singleton.mp hq, hgoverning]
          rfl
      · exact fun h => h.2.symm

/-- The passes over a clean template succeed exactly if every placeholder that has a site is
governed by candidates. They lead to the product for these placeholders. -/
theorem passes_eq_ok_iff {template : Template} {ps : List Placeholder} {variants : List Variant}
    (clean : Clean template ps) :
    passes none ps [Variant.ofTemplate template] = .ok variants ↔
      (∀ q ∈ sited template ps, (governing? template q).isSome) ∧
        variants = product template (sited template ps) := by
  induction ps using List.reverseRecOn generalizing variants with
  | nil =>
    show Except.ok [Variant.ofTemplate template] = .ok variants ↔
      (∀ q ∈ [], (governing? template q).isSome) ∧ variants = product template []
    rw [product_nil, Except.ok.injEq]
    exact ⟨fun h => ⟨fun q hq => absurd hq List.not_mem_nil, h.symm⟩, fun h => h.2.symm⟩
  | append_singleton ps p ih =>
    have cleanPs : Clean template ps := clean.mono (List.subset_append_left ps [p])
    have cleanSited : Clean template (sited template ps) :=
      cleanPs.mono (sited_subset template ps)
    rw [passes_concat, bind_eq_ok_iff]
    constructor
    · rintro ⟨before, hbefore, hpass⟩
      obtain ⟨hqs, rfl⟩ := (ih cleanPs).mp hbefore
      exact (pass_product_eq_ok_iff cleanSited hqs).mp hpass
    · intro h
      -- One more pass asks for no fewer placeholders, so those before it are governed too.
      have hqs : ∀ q ∈ sited template ps, (governing? template q).isSome := by
        intro q hq
        obtain ⟨hlisted, hsite⟩ := mem_sited_iff.mp hq
        exact h.1 q (mem_sited_iff.mpr ⟨List.mem_append_left [p] hlisted, hsite⟩)
      exact ⟨_, (ih cleanPs).mpr ⟨hqs, rfl⟩, (pass_product_eq_ok_iff cleanSited hqs).mpr h⟩

end AsmVariants.Proofs
