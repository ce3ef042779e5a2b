import AsmVariants.Proofs.Expansion.Replay

/-!
# `AsmVariants.Proofs.Expansion.DepthFirst`: each variant is expanded on its own

The passes go breadth-first: a pass takes the whole set, finds the first sites of all variants
before it copies any, and hands the new set to the next pass. `depthFirst` takes one variant and
expands it to the end, candidate by candidate, before it looks at another. It knows no set and no
zip of variants with sites, and it fills in a value as `applyChoice` does, on every line without a
semicolon.

The two meet in how a pass treats a set that is cut in two:

* `pass_append`: without a limit, a pass over two sets put together is a pass over the one and a
  pass over the other.
* `passes_append_eq_ok_iff`: the same for all passes, where both succeed. Where the passes fail, the
  error can differ: breadth-first reports what fails in an earlier pass, depth-first what fails in
  an earlier variant.
* `passes_singleton_eq_ok_iff`: the passes over a set of one are the depth-first expansion.

`depthFirst_cons_eq_ok_iff` says once what the depth-first expansion can do with a placeholder, and
later modules do not unfold it.
-/

set_option autoImplicit false

namespace AsmVariants.Proofs

open Expansion (passes)

/-- All that comes of one variant, candidate by candidate. A first site above which nothing is
listed ends the expansion. -/
def depthFirst : List Placeholder → Variant → Except ExpansionError (List Variant)
  | [], variant => .ok [variant]
  | p :: ps, variant =>
    match variant.lines.findIdx? p.isSite with
    | none => depthFirst ps variant
    | some index =>
      match Candidates.above? p variant.lines index with
      | none => .error (.unresolved p (index + 1))
      | some candidates => do
        let parts ← candidates.zipIdx.mapM fun (value, position) =>
          depthFirst ps ⟨applyChoice variant.lines ⟨p, position, value⟩,
            variant.choices ++ [⟨p, position, value⟩]⟩
        return parts.flatten

/-! ### Sets that are cut in two

A pass treats its variants one by one. So passes over two sets in a row are the passes over each of
them, and in the end those over single variants. -/

/-- A pass without a limit finds all first sites and goes to the branches. -/
theorem pass_none_eq (p : Placeholder) (variants : List Variant) :
    Expansion.pass none p variants = (variants.mapM (Variant.firstSite? · p)).map fun sites =>
      (variants.zip sites).flatMap fun (variant, site) => variant.branches p site := by
  cases hsearch : variants.mapM (·.firstSite? p) with
  | error e =>
    rw [Expansion.pass, hsearch]
    rfl
  | ok sites =>
    have hfound := mapM_eq_ok_iff.mp hsearch
    rw [pass_eq hfound]
    split
    · -- Where nothing branches, the branches are the set that is kept.
      next hnone =>
      exact congrArg Except.ok
        (flatMap_branches_none p hfound.length_eq (by simpa using hnone)).symm
    · rfl

/-- A pass over two sets put together is a pass over each of them. -/
theorem pass_append (p : Placeholder) (front back : List Variant) :
    Expansion.pass none p (front ++ back) = do
      let front ← Expansion.pass none p front
      let back ← Expansion.pass none p back
      return front ++ back := by
  rw [pass_none_eq, pass_none_eq, pass_none_eq, List.mapM_append]
  cases hfront : front.mapM (·.firstSite? p) with
  | error e => rfl
  | ok frontSites =>
    cases hback : back.mapM (·.firstSite? p) with
    | error e => rfl
    | ok backSites =>
      -- Each variant has a site beside it, so the two zips do not run into each other.
      have hlength : front.length = frontSites.length := (mapM_eq_ok_iff.mp hfront).length_eq
      show Except.ok (((front ++ back).zip (frontSites ++ backSites)).flatMap _) = Except.ok _
      rw [List.zip_append hlength, List.flatMap_append]

/-- The passes over two sets put together succeed exactly if they do over each of them. -/
theorem passes_append_eq_ok_iff {ps : List Placeholder} {front back after : List Variant} :
    passes none ps (front ++ back) = .ok after ↔
      ∃ left right, passes none ps front = .ok left ∧ passes none ps back = .ok right ∧
        after = left ++ right := by
  -- The sets are general, since each pass hands two new sets to the next.
  induction ps generalizing front back with
  | nil =>
    constructor
    · intro h
      exact ⟨front, back, rfl, rfl, (Except.ok.inj h).symm⟩
    · rintro ⟨left, right, hleft, hright, rfl⟩
      rw [← Except.ok.inj hleft, ← Except.ok.inj hright]
      rfl
  | cons p ps ih =>
    simp only [passes_cons, pass_append, bind_eq_ok_iff]
    constructor
    · rintro ⟨next, ⟨frontNext, hfront, backNext, hback, hnext⟩, h⟩
      obtain rfl := Except.ok.inj hnext
      obtain ⟨left, right, hleft, hright, rfl⟩ := ih.mp h
      exact ⟨left, right, ⟨frontNext, hfront, hleft⟩, ⟨backNext, hback, hright⟩, rfl⟩
    · rintro ⟨left, right, ⟨frontNext, hfront, hleft⟩, ⟨backNext, hback, hright⟩, rfl⟩
      exact ⟨frontNext ++ backNext, ⟨frontNext, hfront, backNext, hback, rfl⟩,
        ih.mpr ⟨left, right, hleft, hright, rfl⟩⟩

/-- Passes have nothing to do in an empty set. -/
theorem passes_empty (ps : List Placeholder) : passes none ps [] = .ok [] := by
  induction ps with
  | nil => rfl
  | cons p ps ih =>
    rw [passes_cons]
    exact ih

/-- The passes over a set are the passes over its variants, one by one. -/
theorem passes_eq_ok_iff_forall₂ {ps : List Placeholder} {variants after : List Variant} :
    passes none ps variants = .ok after ↔
      ∃ parts, List.Forall₂ (fun variant part => passes none ps [variant] = .ok part)
        variants parts ∧ after = parts.flatten := by
  induction variants generalizing after with
  | nil =>
    rw [passes_empty]
    constructor
    · intro h
      exact ⟨[], .nil, (Except.ok.inj h).symm⟩
    · rintro ⟨parts, hparts, rfl⟩
      rw [List.forall₂_nil_left_iff.mp hparts]
      rfl
  | cons variant variants ih =>
    -- The first variant is cut off the others.
    rw [← List.singleton_append, passes_append_eq_ok_iff]
    constructor
    · rintro ⟨part, rest, hpart, hrest, rfl⟩
      obtain ⟨parts, hparts, rfl⟩ := ih.mp hrest
      exact ⟨part :: parts, .cons hpart hparts, rfl⟩
    · rintro ⟨parts, hparts, rfl⟩
      obtain ⟨part, others, hpart, hothers, rfl⟩ := List.forall₂_cons_left_iff.mp hparts
      exact ⟨part, others.flatten, hpart, ih.mpr ⟨others, hothers, rfl⟩, rfl⟩

/-! ### One variant

A single variant goes through its first placeholder, and its copies are a set again. This is the
recursion of `depthFirst`. -/

/-- With one more placeholder, a variant without a site is expanded as before, and each copy of a
variant with a site is expanded on its own. -/
theorem depthFirst_cons_eq_ok_iff {p : Placeholder} {ps : List Placeholder} {variant : Variant}
    {after : List Variant} :
    depthFirst (p :: ps) variant = .ok after ↔
      (variant.firstSite? p = .ok none ∧ depthFirst ps variant = .ok after) ∨
      ∃ site parts, variant.firstSite? p = .ok (some site) ∧
        List.Forall₂ (fun candidate part =>
          depthFirst ps (withChoice variant ⟨p, candidate.2, candidate.1⟩) = .ok part)
          site.candidates.zipIdx parts ∧
        after = parts.flatten := by
  -- The copy that this recursion writes out is the one that a pass makes.
  have hcopy : ∀ choice : Choice,
      (⟨applyChoice variant.lines choice, variant.choices ++ [choice]⟩ : Variant) =
        withChoice variant choice := by
    intro choice
    rw [← lines_withChoice]
    rfl
  obtain ⟨hfirst, hsite⟩ | ⟨index, hfirst, hlisted, hsite⟩ |
    ⟨index, candidates, hfirst, hlisted, hsite⟩ := firstSite?_cases variant p
  · simp [depthFirst, hfirst, hsite]
  · simp [depthFirst, hfirst, hlisted, hsite]
  · simp only [depthFirst, hfirst, hlisted, hsite, hcopy, bind_eq_ok_iff, mapM_eq_ok_iff]
    constructor
    · rintro ⟨parts, hparts, h⟩
      exact Or.inr ⟨⟨index, candidates⟩, parts, rfl, hparts, (Except.ok.inj h).symm⟩
    · rintro (⟨h, -⟩ | ⟨site, parts, h, hparts, rfl⟩)
      · exact nomatch h
      · cases h
        exact ⟨parts, hparts, rfl⟩

/-- The passes over a set of one expand its variant depth-first. -/
theorem passes_singleton_eq_ok_iff {ps : List Placeholder} {variant : Variant}
    {after : List Variant} :
    passes none ps [variant] = .ok after ↔ depthFirst ps variant = .ok after := by
  -- The variant is general, since the hypothesis is used of each copy of it.
  induction ps generalizing variant after with
  | nil => rfl
  | cons p ps ih =>
    rw [passes_cons, bind_eq_ok_iff, depthFirst_cons_eq_ok_iff]
    cases hsite : variant.firstSite? p with
    | error e =>
      -- The first site has no candidates, which ends both expansions.
      have hfail : Expansion.pass none p [variant] = .error e :=
        pass_of_forall_error none (List.cons_ne_nil _ _) (List.forall_mem_singleton.mpr hsite)
      simp [hfail]
    | ok site =>
      have hpass : Expansion.pass none p [variant] = .ok (variant.branches p site) := by
        have hfound : [variant].mapM (Variant.firstSite? · p) = .ok [site] :=
          mapM_eq_ok_iff.mpr (.cons hsite .nil)
        rw [pass_none_eq, hfound]
        exact congrArg Except.ok (List.append_nil _)
      simp only [hpass, Except.ok.injEq, exists_eq_left']
      cases site with
      | none =>
        show passes none ps [variant] = .ok after ↔ _
        simp [ih]
      | some site =>
        -- The copies are a set, and the passes over it go from copy to copy.
        simp only [branches_of_firstSite? hsite, passes_eq_ok_iff_forall₂, ih,
          List.forall₂_map_left_iff]
        simp

/-- Breadth-first and depth-first succeed on the same templates, and with the same variants in the
same order. That is because no variant depends on those beside it: a pass over a set is a pass over
its front and a pass over its back, whether they succeed or fail. -/
theorem expand_eq_ok_iff_depthFirst (template : Template) (ps : List Placeholder) :
    (∀ variants, expand none template ps = .ok variants ↔
      depthFirst ps (Variant.ofTemplate template) = .ok variants) ∧
    ∀ (p : Placeholder) (front back : List Variant),
      Expansion.pass none p (front ++ back) = do
        let front ← Expansion.pass none p front
        let back ← Expansion.pass none p back
        return front ++ back := by
  refine ⟨fun variants => ?_, pass_append⟩
  show passes none ps [Variant.ofTemplate template] = .ok variants ↔ _
  exact passes_singleton_eq_ok_iff

-- The first copy of this template fails for `%3`, and the second for `%2`, which comes earlier.
example :
    let template := Template.ofText "; %1=%3,%2\nmov %1\n".toList
    let ps := ["%1", "%2", "%3"].filterMap fun token => Placeholder.ofToken? token.toList
    expand none template ps = .error (.unresolved ⟨['2'], by decide, by decide⟩ 2) ∧
      depthFirst ps (Variant.ofTemplate template) =
        .error (.unresolved ⟨['3'], by decide, by decide⟩ 2) :=
  ⟨rfl, rfl⟩

end AsmVariants.Proofs
