import AsmVariants.Proofs.Expansion.Pass

/-!
# `AsmVariants.Proofs.Expansion.Simulation`: two expansions side by side

Two templates can be expanded in step: pass by pass, and within a pass variant by variant. If a
relation between variants makes their first sites the same, and if it still holds when both variants
have made the same choice, then neither expansion does anything that the other does not. They come
to related variants in the same positions, or they fail with the same error.

`Simulation` states the two conditions, `Agree` relates the outcomes, `Simulation.pass` is the step
and `Simulation.expand` the run. A limit does not come into the conditions, since a pass counts what
its first sites call for.
-/

set_option autoImplicit false

namespace AsmVariants.Proofs

open Expansion (passes checkLimit)

/-- Two outcomes agree if both are the same error, or both succeed with related results. -/
def Agree {α β : Type} (R : α → β → Prop) :
    Except ExpansionError α → Except ExpansionError β → Prop
  | .ok a, .ok b => R a b
  | .error e, .error e' => e = e'
  | _, _ => False

/-- Outcomes that agree do so under a weaker relation. -/
theorem Agree.imp {α β : Type} {R S : α → β → Prop} {x : Except ExpansionError α}
    {y : Except ExpansionError β} (h : Agree R x y) (hRS : ∀ a b, R a b → S a b) :
    Agree S x y := by
  cases x with
  | error e => cases y with
    | error e' => exact h
    | ok b => exact h
  | ok a => cases y with
    | error e' => exact h
    | ok b => exact hRS a b h

/-- Outcomes that agree still do after related steps. -/
theorem Agree.bind {α β γ δ : Type} {R : α → β → Prop} {S : γ → δ → Prop}
    {x : Except ExpansionError α} {y : Except ExpansionError β}
    {f : α → Except ExpansionError γ} {g : β → Except ExpansionError δ} (h : Agree R x y)
    (hfg : ∀ a b, R a b → Agree S (f a) (g b)) : Agree S (x >>= f) (y >>= g) := by
  cases x with
  | error e => cases y with
    | error e' => exact h
    | ok b => exact h.elim
  | ok a => cases y with
    | error e' => exact h.elim
    | ok b => exact hfg a b h

/-- Two variants have the same first site, if they have it on the same line and the same candidates
are listed above that line. -/
theorem firstSite?_congr {p : Placeholder} {variant variant' : Variant}
    (hfirst : variant.lines.findIdx? p.isSite = variant'.lines.findIdx? p.isSite)
    (hlisted : ∀ index, variant.lines.findIdx? p.isSite = some index →
      Candidates.above? p variant.lines index = Candidates.above? p variant'.lines index) :
    variant.firstSite? p = variant'.firstSite? p := by
  rw [Variant.firstSite?, Variant.firstSite?, ← hfirst]
  cases hindex : variant.lines.findIdx? p.isSite with
  | none => rfl
  | some index =>
    simp only [hlisted index hindex]

/-- What a relation between variants must do for two expansions to stay in step:

- `firstSite?_eq`: related variants have the same first site with the same candidates, or the same
  error;
- `withChoice`: they stay related when both make the same choice among these candidates. -/
structure Simulation (ps : List Placeholder) (R : Variant → Variant → Prop) : Prop where
  firstSite?_eq : ∀ {variant variant' : Variant}, R variant variant' →
    ∀ p ∈ ps, variant.firstSite? p = variant'.firstSite? p
  withChoice : ∀ {variant variant' : Variant} {site : FirstSite} {choice : Choice},
    R variant variant' → variant.firstSite? choice.placeholder = .ok (some site) →
    site.candidates[choice.index]? = some choice.value →
    R (withChoice variant choice) (withChoice variant' choice)

section

variable {ps : List Placeholder} {R : Variant → Variant → Prop} {p : Placeholder}
  {variants variants' : List Variant}

/-- The branches of related variants are related. -/
theorem Simulation.branches (h : Simulation ps R) {variant variant' : Variant}
    {site : Option FirstSite} (hrelated : R variant variant')
    (hsite : variant.firstSite? p = .ok site) (hsite' : variant'.firstSite? p = .ok site) :
    List.Forall₂ R (variant.branches p site) (variant'.branches p site) := by
  cases site with
  | none => exact .cons hrelated .nil
  | some site =>
    rw [branches_of_firstSite? hsite, branches_of_firstSite? hsite', List.forall₂_map_left_iff,
      List.forall₂_map_right_iff, List.forall₂_same]
    rintro ⟨value, index⟩ hmem
    exact h.withChoice hrelated hsite (List.mem_zipIdx_iff_getElem?.mp hmem)

/-- The branches of related sets are related, variant by variant. -/
theorem Simulation.flatMap_branches (h : Simulation ps R) {sites : List (Option FirstSite)}
    (hrelated : List.Forall₂ R variants variants')
    (hfound : List.Forall₂ (fun variant site => variant.firstSite? p = .ok site) variants sites)
    (hfound' : List.Forall₂ (fun variant site => variant.firstSite? p = .ok site)
      variants' sites) :
    List.Forall₂ R
      ((variants.zip sites).flatMap fun (variant, site) => variant.branches p site)
      ((variants'.zip sites).flatMap fun (variant, site) => variant.branches p site) := by
  -- Both sets are zipped with one list of sites, so the three lists come apart together.
  induction hrelated generalizing sites with
  | nil => exact .nil
  | cons hvariant _ ih =>
    cases hfound with
    | cons hsite hfound =>
      cases hfound' with
      | cons hsite' hfound' =>
        rw [List.zip_cons_cons, List.zip_cons_cons, List.flatMap_cons, List.flatMap_cons]
        exact List.rel_append (h.branches hvariant hsite hsite') (ih hfound hfound')

/-- A pass over related sets fails with the same error or leads to related sets. -/
theorem Simulation.pass (h : Simulation ps R) (limit : Option UInt64) (hp : p ∈ ps)
    (hrelated : List.Forall₂ R variants variants') :
    Agree (List.Forall₂ R) (Expansion.pass limit p variants)
      (Expansion.pass limit p variants') := by
  -- The searches for the first sites give the same list or the same error.
  have hsearch : variants.mapM (·.firstSite? p) = variants'.mapM (·.firstSite? p) := by
    induction hrelated with
    | nil => rfl
    | cons hvariant _ ih => rw [List.mapM_cons, List.mapM_cons, h.firstSite?_eq hvariant p hp, ih]
  cases hsites : variants'.mapM (·.firstSite? p) with
  | error e =>
    rw [Expansion.pass, Expansion.pass, hsearch, hsites]
    rfl
  | ok sites =>
    have hfound := mapM_eq_ok_iff.mp (hsearch.trans hsites)
    have hfound' := mapM_eq_ok_iff.mp hsites
    rw [pass_eq hfound, pass_eq hfound']
    split
    · exact hrelated
    · -- What is counted depends on the sites alone, so the limit stops both or neither.
      cases checkLimit limit (Expansion.requested sites) with
      | error e => rfl
      | ok => exact h.flatMap_branches hrelated hfound hfound'

/-- A run of passes stays in step, by `Simulation.pass` at each of them. -/
theorem Simulation.passes (h : Simulation ps R) (limit : Option UInt64) {qs : List Placeholder}
    (hqs : qs ⊆ ps) (hrelated : List.Forall₂ R variants variants') :
    Agree (List.Forall₂ R) (passes limit qs variants) (passes limit qs variants') := by
  -- The placeholders that are left get fewer, and those that the simulation is for stay.
  induction qs generalizing variants variants' with
  | nil => exact hrelated
  | cons p qs ih =>
    obtain ⟨hp, hqs⟩ := List.cons_subset.mp hqs
    rw [passes_cons, passes_cons]
    exact (h.pass limit hp hrelated).bind fun _ _ hnext => ih hqs hnext

/-- Expansions of related templates fail with the same error, or lead to variants that are related
position by position. -/
theorem Simulation.expand (h : Simulation ps R) (limit : Option UInt64)
    {template template' : Template}
    (hrelated : R (Variant.ofTemplate template) (Variant.ofTemplate template')) :
    Agree (List.Forall₂ R) (expand limit template ps) (expand limit template' ps) := by
  rw [AsmVariants.expand, AsmVariants.expand]
  cases checkLimit limit 1 with
  | error e => rfl
  | ok => exact h.passes limit (List.Subset.refl ps) (.cons hrelated .nil)

end

end AsmVariants.Proofs
