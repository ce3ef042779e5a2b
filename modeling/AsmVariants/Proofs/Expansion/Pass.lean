import AsmVariants.Expansion.Basic
import AsmVariants.Proofs.Except
import AsmVariants.Proofs.Placeholder.Pieces
import Mathlib.Data.List.Forall2

/-!
# `AsmVariants.Proofs.Expansion.Pass`: what a pass can do

A pass finds the first site of every variant, counts, copies, and fills the copies in line by line.
This module says once what comes of it, and later modules do not unfold it again:

* `branches_some`: a copy that was filled in line by line from the first site on is the variant
  with every line filled in.
* `Step`: what a pass makes of one variant. It keeps a variant that has no site, and it makes one
  choice in a variant that has one.
* `requested_eq`: what a pass counts is the size of the set that it makes.
* `pass_ok` and `mem_of_pass_ok`: a pass that succeeds takes such a step in each of its variants.
* `passes_induction`: what every step keeps, all passes keep.
-/

set_option autoImplicit false

namespace AsmVariants.Proofs

open Expansion (passes checkLimit requested branchCount largestCount)

/-! ### Filling in a copy

The program fills in a copy line by line, starting at the first site. No earlier line is a site, so
this comes to filling in all lines. -/

/-- A line after a value has been chosen for a placeholder. -/
def fillLine (p : Placeholder) (value line : Text) : Text :=
  if p.isSite line then p.replace value line else line

/-- The variant after one more choice: the value stands at every site of the placeholder. -/
def withChoice (variant : Variant) (choice : Choice) : Variant where
  lines := variant.lines.map (fillLine choice.placeholder choice.value)
  choices := variant.choices ++ [choice]

/-- One line of the original, given with its index, filled in in one copy. -/
def fillCopy (p : Placeholder) (value : Text) (copy : Variant) (line : Text × Nat) : Variant :=
  if p.isSite line.1 then copy.setLine line.2 (p.replace value line.1) else copy

/-- Each copy is filled in on its own, with its own candidate. -/
theorem fillCopies_map (p : Placeholder) (candidates : List Text) (copy : Text × Nat → Variant)
    (line : Text × Nat) :
    Variant.fillCopies p candidates (candidates.zipIdx.map copy) line =
      candidates.zipIdx.map fun candidate => fillCopy p candidate.1 (copy candidate) line := by
  -- The copies were made from the candidates, so the two lists run side by side.
  have hzip : ∀ g : Variant → Text → Variant,
      (candidates.zipIdx.map copy).zipWith g candidates =
        candidates.zipIdx.map fun candidate => g (copy candidate) candidate.1 := by
    intro g
    conv_lhs => arg 3; rw [← List.zipIdx_map_fst 0 candidates]
    rw [List.zipWith_map, List.zipWith_self]
  obtain ⟨line, index⟩ := line
  rw [Variant.fillCopies]
  by_cases hsite : p.isSite line
  · rw [if_pos hsite, hzip]
    simp only [fillCopy, if_pos hsite]
  · rw [if_neg hsite]
    simp only [fillCopy, if_neg hsite]

/-- The copies are filled in independently of each other. -/
theorem foldl_fillCopies (p : Placeholder) (candidates : List Text)
    (copy : Text × Nat → Variant) (lines : List (Text × Nat)) :
    lines.foldl (Variant.fillCopies p candidates) (candidates.zipIdx.map copy) =
      candidates.zipIdx.map fun candidate =>
        lines.foldl (fillCopy p candidate.1) (copy candidate) := by
  induction lines generalizing copy with
  | nil => rfl
  | cons line lines ih =>
    rw [List.foldl_cons, fillCopies_map, ih]
    rfl

/-- Going through the rest of the lines fills them in and leaves the lines before them. -/
theorem foldl_fillCopy (p : Placeholder) (value : Text) (before rest : List Text)
    (choices : List Choice) :
    (rest.zipIdx before.length).foldl (fillCopy p value) ⟨before ++ rest, choices⟩ =
      ⟨before ++ rest.map (fillLine p value), choices⟩ := by
  induction rest generalizing before with
  | nil => rfl
  | cons line rest ih =>
    -- The index of the line is the length of what has been gone through.
    have hline : fillCopy p value ⟨before ++ line :: rest, choices⟩ (line, before.length) =
        ⟨(before ++ [fillLine p value line]) ++ rest, choices⟩ := by
      rw [fillCopy, fillLine]
      split
      · simp [Variant.setLine]
      · simp
    have hlength : before.length + 1 = (before ++ [fillLine p value line]).length := by simp
    rw [List.zipIdx_cons, List.foldl_cons, hline, hlength, ih]
    simp

/-- Where the lines before an index hold no site, filling in the lines from that index on fills in
all lines. -/
theorem branches_some (variant : Variant) (p : Placeholder) (site : FirstSite)
    (hbefore : ∀ line ∈ variant.lines.take site.index, p.isSite line = false)
    (hindex : site.index ≤ variant.lines.length) :
    variant.branches p (some site) = site.candidates.zipIdx.map fun candidate =>
      withChoice variant ⟨p, candidate.2, candidate.1⟩ := by
  obtain ⟨lines, choices⟩ := variant
  obtain ⟨index, candidates⟩ := site
  have hlength : (lines.take index).length = index := List.length_take_of_le hindex
  have hdrop : lines.zipIdx.drop index =
      (lines.drop index).zipIdx (lines.take index).length := by
    conv_lhs => rw [← List.take_append_drop index lines, List.zipIdx_append]
    rw [List.drop_left' (by rw [List.length_zipIdx, hlength]), Nat.zero_add]
  -- Filling in the lines before the index as well would change nothing.
  have hkept : ∀ value : Text,
      (lines.take index).map (fillLine p value) = lines.take index := by
    intro value
    refine (List.map_congr_left fun line hline => ?_).trans (List.map_id _)
    rw [fillLine, hbefore line hline, if_neg Bool.false_ne_true]
    rfl
  rw [Variant.branches, Variant.copies, foldl_fillCopies]
  refine List.map_congr_left fun candidate _ => ?_
  have hfold := foldl_fillCopy p candidate.1 (lines.take index) (lines.drop index)
    (choices ++ [⟨p, candidate.2, candidate.1⟩])
  rw [List.take_append_drop, ← hdrop] at hfold
  refine hfold.trans ?_
  rw [withChoice, ← hkept candidate.1, ← List.map_append, List.take_append_drop]

/-! ### First sites

A search for a first site ends in one of three ways (`firstSite?_cases`). The equations behind it
say for each result when it is the one. -/

/-- A search depends on what the tests say of the members of the lists, and on nothing else. -/
theorem findIdx?_congr {α β : Type} {test : α → Bool} {test' : β → Bool} {l : List α}
    {l' : List β} (h : List.Forall₂ (fun a b => test a = test' b) l l') :
    l.findIdx? test = l'.findIdx? test' := by
  induction h with
  | nil => rfl
  | cons hhead _ ih => rw [List.findIdx?_cons, List.findIdx?_cons, hhead, ih]

/-- The search for a first site has three results: there is no site, nothing is listed above the
first site, or candidates are. -/
theorem firstSite?_cases (variant : Variant) (p : Placeholder) :
    (variant.lines.findIdx? p.isSite = none ∧ variant.firstSite? p = .ok none) ∨
    (∃ index, variant.lines.findIdx? p.isSite = some index ∧
      Candidates.above? p variant.lines index = none ∧
      variant.firstSite? p = .error (.unresolved p (index + 1))) ∨
    (∃ index candidates, variant.lines.findIdx? p.isSite = some index ∧
      Candidates.above? p variant.lines index = some candidates ∧
      variant.firstSite? p = .ok (some ⟨index, candidates⟩)) := by
  cases hfirst : variant.lines.findIdx? p.isSite with
  | none => exact Or.inl ⟨rfl, by rw [Variant.firstSite?, hfirst]⟩
  | some index =>
    cases hlisted : Candidates.above? p variant.lines index with
    | none =>
      refine Or.inr (Or.inl ⟨index, rfl, hlisted, ?_⟩)
      simp only [Variant.firstSite?, hfirst, hlisted]
    | some candidates =>
      refine Or.inr (Or.inr ⟨index, candidates, rfl, hlisted, ?_⟩)
      simp only [Variant.firstSite?, hfirst, hlisted]

/-- A variant has no first site exactly if it has no site. -/
theorem firstSite?_eq_ok_none_iff {variant : Variant} {p : Placeholder} :
    variant.firstSite? p = .ok none ↔ variant.lines.findIdx? p.isSite = none := by
  obtain ⟨hfirst, h⟩ | ⟨index, hfirst, -, h⟩ | ⟨index, candidates, hfirst, -, h⟩ :=
    firstSite?_cases variant p <;> simp [hfirst, h]

/-- A first site is the first line that is a site, and its candidates stand above it. -/
theorem firstSite?_eq_ok_some_iff {variant : Variant} {p : Placeholder} {site : FirstSite} :
    variant.firstSite? p = .ok (some site) ↔
      variant.lines.findIdx? p.isSite = some site.index ∧
        Candidates.above? p variant.lines site.index = some site.candidates := by
  obtain ⟨hfirst, h⟩ | ⟨index, hfirst, hlisted, h⟩ | ⟨index, candidates, hfirst, hlisted, h⟩ :=
    firstSite?_cases variant p
  · simp [hfirst, h]
  · simp only [h, hfirst, reduceCtorEq, Option.some.injEq, false_iff, not_and]
    rintro rfl
    simp [hlisted]
  · simp only [h, hfirst, Except.ok.injEq, Option.some.injEq]
    constructor
    · rintro rfl
      exact ⟨rfl, hlisted⟩
    · rintro ⟨rfl, habove⟩
      rw [hlisted, Option.some.injEq] at habove
      rw [habove]

/-- A first site above which nothing is listed is an error that names its line. -/
theorem firstSite?_eq_error {variant : Variant} {p : Placeholder} {index : Nat}
    (hfirst : variant.lines.findIdx? p.isSite = some index)
    (hlisted : Candidates.above? p variant.lines index = none) :
    variant.firstSite? p = .error (.unresolved p (index + 1)) := by
  simp only [Variant.firstSite?, hfirst, hlisted]

/-- What a pass makes of one variant. -/
inductive Step (p : Placeholder) (before : Variant) : Variant → Prop
  /-- A variant without a site is kept. -/
  | keep (hsite : before.lines.findIdx? p.isSite = none) : Step p before before
  /-- A variant with a site has the placeholder filled in, with one of the candidates that stand
  above the first site. -/
  | choose {index : Nat} {candidates : List Text} {choice : Choice}
      (hsite : before.lines.findIdx? p.isSite = some index)
      (hlisted : Candidates.above? p before.lines index = some candidates)
      (hplaceholder : choice.placeholder = p)
      (hvalue : candidates[choice.index]? = some choice.value) :
      Step p before (withChoice before choice)

/-- Branches at a first site are the variants with one more choice. -/
theorem branches_of_firstSite? {variant : Variant} {p : Placeholder} {site : FirstSite}
    (h : variant.firstSite? p = .ok (some site)) :
    variant.branches p (some site) = site.candidates.zipIdx.map fun candidate =>
      withChoice variant ⟨p, candidate.2, candidate.1⟩ := by
  obtain ⟨hindex, hfirst, hbefore⟩ :=
    List.findIdx?_eq_some_iff_getElem.mp (firstSite?_eq_ok_some_iff.mp h).1
  refine branches_some variant p site (fun line hline => ?_) (Nat.le_of_lt hindex)
  obtain ⟨i, hi, rfl⟩ := List.mem_take_iff_getElem.mp hline
  have hlt : i < site.index := Nat.lt_of_lt_of_le hi (Nat.min_le_left _ _)
  simpa using hbefore i hlt

/-- A variant has as many branches as are counted for it. -/
theorem length_branches {variant : Variant} {p : Placeholder} {site : Option FirstSite}
    (h : variant.firstSite? p = .ok site) :
    (variant.branches p site).length = branchCount site := by
  cases site with
  | none => rfl
  | some site =>
    rw [branches_of_firstSite? h, List.length_map, List.length_zipIdx]
    rfl

/-- The branches of a variant are what the steps lead to. -/
theorem mem_branches_iff {before after : Variant} {p : Placeholder} {site : Option FirstSite}
    (h : before.firstSite? p = .ok site) :
    after ∈ before.branches p site ↔ Step p before after := by
  cases site with
  | none =>
    -- Without a site, the only branch is the variant and the only step is to keep it.
    have hnone := firstSite?_eq_ok_none_iff.mp h
    rw [Variant.branches, List.mem_singleton]
    constructor
    · rintro rfl
      exact .keep hnone
    · intro hstep
      cases hstep with
      | keep => rfl
      | choose hsite => exact nomatch hnone.symm.trans hsite
  | some site =>
    -- With a site, a branch and a step each pick a candidate at its index.
    obtain ⟨hfirst, hlisted⟩ := firstSite?_eq_ok_some_iff.mp h
    rw [branches_of_firstSite? h, List.mem_map]
    constructor
    · rintro ⟨⟨value, index⟩, hmem, rfl⟩
      exact .choose hfirst hlisted rfl (List.mem_zipIdx_iff_getElem?.mp hmem)
    · intro hstep
      cases hstep with
      | keep hsite => exact nomatch hfirst.symm.trans hsite
      | @choose index candidates choice hsite habove hplaceholder hvalue =>
        obtain rfl : index = site.index := Option.some.inj (hsite.symm.trans hfirst)
        obtain rfl : candidates = site.candidates := Option.some.inj (habove.symm.trans hlisted)
        subst hplaceholder
        exact ⟨(choice.value, choice.index), List.mem_zipIdx_iff_getElem?.mpr hvalue, rfl⟩

/-! ### Passes

The equation `pass_eq` has all that a pass does. What follows are the four cases in which later
modules meet a pass: any pass that succeeds, and passes in which no variant has a site, every search
fails, or all variants have the same first site. -/

/-- Where no variant has a site, the branches of all variants are the variants. -/
theorem flatMap_branches_none (p : Placeholder) {variants : List Variant}
    {sites : List (Option FirstSite)} (hlength : variants.length = sites.length)
    (hnone : ∀ site ∈ sites, site = none) :
    (variants.zip sites).flatMap (fun (variant, site) => variant.branches p site) = variants := by
  have hbranch : ∀ pair ∈ variants.zip sites, pair.1.branches p pair.2 = [pair.1] := by
    rintro ⟨variant, site⟩ hpair
    rw [hnone site (List.of_mem_zip hpair).2]
    rfl
  rw [List.flatMap_congr hbranch, ← List.map_eq_flatMap, List.map_fst_zip (Nat.le_of_eq hlength)]

/-- What a pass counts before it makes the branches is how many it makes. -/
theorem requested_eq {p : Placeholder} {variants : List Variant}
    {sites : List (Option FirstSite)}
    (h : List.Forall₂ (fun variant site => variant.firstSite? p = .ok site) variants sites) :
    requested sites = min ((variants.zip sites).flatMap fun (variant, site) =>
      variant.branches p site).length largestCount := by
  rw [requested]
  congr 1
  induction h with
  | nil => rfl
  | @cons variant site variants sites hsite _ ih =>
    rw [List.zip_cons_cons, List.flatMap_cons, List.length_append, length_branches hsite,
      List.foldr_cons, ih]

/-- A pass that has found all first sites counts what they call for and goes to the branches. -/
theorem pass_eq {limit : Option UInt64} {p : Placeholder} {variants : List Variant}
    {sites : List (Option FirstSite)}
    (h : List.Forall₂ (fun variant site => variant.firstSite? p = .ok site) variants sites) :
    Expansion.pass limit p variants =
      if sites.all Option.isNone then .ok variants
      else checkLimit limit (requested sites) >>= fun _ =>
        .ok ((variants.zip sites).flatMap fun (variant, site) => variant.branches p site) := by
  rw [Expansion.pass, mapM_eq_ok_iff.mpr h]
  rfl

/-- A pass that succeeds has found the first sites of all variants, and leads to the branches at
them. -/
theorem pass_ok {limit : Option UInt64} {p : Placeholder} {variants after : List Variant}
    (h : Expansion.pass limit p variants = .ok after) :
    ∃ sites, List.Forall₂ (fun variant site => variant.firstSite? p = .ok site) variants sites ∧
      after = (variants.zip sites).flatMap fun (variant, site) => variant.branches p site := by
  obtain ⟨sites, hsites, -⟩ := bind_eq_ok_iff.mp h
  have hfound := mapM_eq_ok_iff.mp hsites
  refine ⟨sites, hfound, ?_⟩
  rw [pass_eq hfound] at h
  split at h
  · -- The set is kept as it is, which is the same as branching where nothing branches.
    next hnone =>
    rw [flatMap_branches_none p hfound.length_eq (by simpa using hnone)]
    exact (Except.ok.inj h).symm
  · obtain ⟨-, -, h⟩ := bind_eq_ok_iff.mp h
    exact (Except.ok.inj h).symm

/-- A variant after a pass comes from a step in a variant before it. -/
theorem mem_of_pass_ok {limit : Option UInt64} {p : Placeholder} {variants after : List Variant}
    (h : Expansion.pass limit p variants = .ok after) :
    ∀ variant ∈ after, ∃ before ∈ variants, Step p before variant := by
  obtain ⟨sites, hfound, rfl⟩ := pass_ok h
  intro variant hmem
  obtain ⟨⟨before, site⟩, hpair, hbranch⟩ := List.mem_flatMap.mp hmem
  have hsite := (List.forall₂_iff_zip.mp hfound).2 hpair
  exact ⟨before, (List.of_mem_zip hpair).1, (mem_branches_iff hsite).mp hbranch⟩

/-- A pass in which no variant has a site keeps them all. -/
theorem pass_of_forall_none (limit : Option UInt64) {p : Placeholder} {variants : List Variant}
    (h : ∀ variant ∈ variants, variant.firstSite? p = .ok none) :
    Expansion.pass limit p variants = .ok variants := by
  have hfound : List.Forall₂ (fun (variant : Variant) site => variant.firstSite? p = .ok site)
      variants (variants.map fun _ => none) :=
    List.forall₂_map_right_iff.mpr (List.forall₂_same.mpr h)
  rw [pass_eq hfound, if_pos (by simp)]

/-- A pass fails if the search for the first site fails in every variant. -/
theorem pass_of_forall_error (limit : Option UInt64) {p : Placeholder} {variants : List Variant}
    {e : ExpansionError} (hne : variants ≠ [])
    (h : ∀ variant ∈ variants, variant.firstSite? p = .error e) :
    Expansion.pass limit p variants = .error e := by
  cases variants with
  | nil => exact absurd rfl hne
  | cons variant variants =>
    rw [Expansion.pass, List.mapM_cons, h variant List.mem_cons_self]
    rfl

/-- A pass in which all variants have the same first site makes one copy of each for each
candidate, if the limit admits that many. -/
theorem pass_of_forall_some (limit : Option UInt64) {p : Placeholder} {variants : List Variant}
    {site : FirstSite} (hne : variants ≠ [])
    (h : ∀ variant ∈ variants, variant.firstSite? p = .ok (some site)) :
    Expansion.pass limit p variants =
      checkLimit limit
          (min (variants.length * site.candidates.length) Expansion.largestCount) >>= fun _ =>
        .ok (variants.flatMap fun variant => site.candidates.zipIdx.map fun candidate =>
          withChoice variant ⟨p, candidate.2, candidate.1⟩) := by
  have hfound : List.Forall₂ (fun (variant : Variant) found => variant.firstSite? p = .ok found)
      variants (variants.map fun _ => some site) :=
    List.forall₂_map_right_iff.mpr (List.forall₂_same.mpr h)
  -- So the pass counts, and what it counts is the number of copies that it makes.
  have hsome : ¬ (variants.map fun _ => some site).all Option.isNone := by
    cases variants with
    | nil => exact absurd rfl hne
    | cons variant variants => simp
  have hbranches : ((variants.zip (variants.map fun _ => some site)).flatMap
      fun (variant, found) => variant.branches p found) =
      variants.flatMap fun variant => site.candidates.zipIdx.map fun candidate =>
        withChoice variant ⟨p, candidate.2, candidate.1⟩ := by
    rw [List.zip_map_right, List.zip_eq_zipWith, List.zipWith_self, List.map_map, List.flatMap_map]
    exact List.flatMap_congr fun variant hmem => branches_of_firstSite? (h variant hmem)
  have hlength : (variants.flatMap fun variant => site.candidates.zipIdx.map fun candidate =>
      withChoice variant ⟨p, candidate.2, candidate.1⟩).length =
      variants.length * site.candidates.length := by
    rw [List.length_flatMap]
    simp
  rw [pass_eq hfound, if_neg hsome, requested_eq hfound, hbranches, hlength]

/-- The first pass comes before the others. -/
theorem passes_cons (limit : Option UInt64) (p : Placeholder) (ps : List Placeholder)
    (variants : List Variant) :
    passes limit (p :: ps) variants = Expansion.pass limit p variants >>= passes limit ps := by
  rw [passes, List.foldlM_cons]
  rfl

/-- Passes in which no variant has a site keep them all. -/
theorem passes_of_forall_none (limit : Option UInt64) {ps : List Placeholder}
    {variants : List Variant}
    (h : ∀ p ∈ ps, ∀ variant ∈ variants, variant.firstSite? p = .ok none) :
    passes limit ps variants = .ok variants := by
  induction ps with
  | nil => rfl
  | cons p ps ih =>
    obtain ⟨hp, hps⟩ := List.forall_mem_cons.mp h
    rw [passes_cons, pass_of_forall_none limit hp]
    exact ih hps

/-- A property that every step keeps holds of every variant that the passes lead to. -/
theorem passes_induction {P : Variant → Prop} {limit : Option UInt64} {ps : List Placeholder}
    {variants after : List Variant} (h : passes limit ps variants = .ok after)
    (start : ∀ variant ∈ variants, P variant)
    (step : ∀ p ∈ ps, ∀ before variant, P before → Step p before variant → P variant) :
    ∀ variant ∈ after, P variant := by
  induction ps generalizing variants with
  | nil =>
    obtain rfl : variants = after := Except.ok.inj h
    exact start
  | cons p ps ih =>
    rw [passes_cons] at h
    obtain ⟨next, hpass, h⟩ := bind_eq_ok_iff.mp h
    refine ih h (fun variant hmem => ?_) fun q hq => step q (List.mem_cons_of_mem p hq)
    obtain ⟨before, hbefore, hstep⟩ := mem_of_pass_ok hpass variant hmem
    exact step p List.mem_cons_self before variant (start before hbefore) hstep

/-- An expansion that succeeds is what its passes make of the template. -/
theorem passes_of_expand {limit : Option UInt64} {template : Template} {ps : List Placeholder}
    {after : List Variant} (h : expand limit template ps = .ok after) :
    passes limit ps [Variant.ofTemplate template] = .ok after := by
  obtain ⟨-, -, hpasses⟩ := bind_eq_ok_iff.mp h
  exact hpasses

end AsmVariants.Proofs
