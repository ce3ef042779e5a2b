import AsmVariants.Proofs.Candidates
import AsmVariants.Proofs.Expansion.Pass

/-!
# `AsmVariants.Proofs.Expansion.Limit`: a limit stops an expansion and does nothing else

A pass counts the variants that it is about to make before it makes them. Where no variant has a
site it does not count at all. `pass_eq_accept` says that this comes to the same as a pass without a
limit and a look at the size of what came of it: the count is the size (`requested_eq`), and a pass
that does not count keeps the set, which the limit has admitted before.

`sizes` lists the sizes that the passes without a limit go through. The first one above the limit is
where the limit stops the passes, and without such a size it is not noticed
(`accept_bind_passes_eq_find?`). A list of candidates is never empty, so the sizes never fall
(`length_le_of_pass`), and it is enough to compare the limit with the last of them.

* `expand_eq_ok_iff`: an expansion under a limit succeeds if it does without one and the limit
  admits what came of it.
* `expand_some_eq_of_sizes`: the whole outcome under a limit, errors included.
-/

set_option autoImplicit false

namespace AsmVariants.Proofs

open Expansion (passes checkLimit branchCount largestCount)

/-! ### The count of a pass is the size of what it makes -/

/-- Every variant counts for at least one branch: itself where it has no site, and otherwise one for
each of the candidates, of which there is one at least. -/
theorem branchCount_pos {variant : Variant} {p : Placeholder} {site : Option FirstSite}
    (h : variant.firstSite? p = .ok site) : 0 < branchCount site := by
  cases site with
  | none => exact Nat.one_pos
  | some site =>
    obtain ⟨-, hlisted⟩ := firstSite?_eq_ok_some_iff.mp h
    obtain ⟨above, line, -, -, hline⟩ := above?_eq_some_iff.mp hlisted
    exact List.length_pos_iff.mpr (onLine?_ne_nil hline)

/-- A pass does not make the set smaller. -/
theorem length_le_of_pass {limit : Option UInt64} {p : Placeholder}
    {variants after : List Variant} (h : Expansion.pass limit p variants = .ok after) :
    variants.length ≤ after.length := by
  obtain ⟨sites, hfound, rfl⟩ := pass_ok h
  clear h
  -- Variant by variant: each leaves a branch.
  induction hfound with
  | nil => exact Nat.le_refl 0
  | cons hsite _ ih =>
    have hpos := branchCount_pos hsite
    rw [List.zip_cons_cons, List.flatMap_cons, List.length_append, length_branches hsite,
      List.length_cons]
    omega

/-- Nor does a run of passes. -/
theorem length_le_of_passes {limit : Option UInt64} {ps : List Placeholder}
    {variants after : List Variant} (h : passes limit ps variants = .ok after) :
    variants.length ≤ after.length := by
  induction ps generalizing variants with
  | nil =>
    obtain rfl : variants = after := Except.ok.inj h
    exact Nat.le_refl _
  | cons p ps ih =>
    rw [passes_cons] at h
    obtain ⟨next, hpass, h⟩ := bind_eq_ok_iff.mp h
    exact (length_le_of_pass hpass).trans (ih h)

/-! ### Sets that a limit admits -/

/-- The limit admits a set of this size. A size beyond the largest count counts as that. -/
def Admits (limit : Option UInt64) (size : Nat) : Prop :=
  checkLimit limit (min size largestCount) = .ok ()

/-- A set, if the limit admits its size. -/
def accept (limit : Option UInt64) (variants : List Variant) :
    Except ExpansionError (List Variant) :=
  checkLimit limit (min variants.length largestCount) >>= fun _ => .ok variants

/-- A count is admitted if it is not above the limit, and any count is where there is none. -/
theorem checkLimit_eq_ok_iff {limit : Option UInt64} {count : Nat} :
    checkLimit limit count = .ok () ↔ ∀ most ∈ limit, count ≤ most.toNat := by
  cases limit with
  | none => simp [checkLimit]
  | some most =>
    rw [checkLimit]
    split
    · next h => simpa using h
    · next h => simpa using h

/-- A limit that admits a set admits a smaller one. -/
theorem Admits.mono {limit : Option UInt64} {size size' : Nat} (h : Admits limit size)
    (hle : size' ≤ size) : Admits limit size' := by
  rw [Admits, checkLimit_eq_ok_iff] at h ⊢
  intro most hmost
  have hsize := h most hmost
  omega

/-- Up to the largest count, the size itself is compared with the limit. -/
theorem admits_some_iff {most : UInt64} {size : Nat} (hsize : size ≤ largestCount) :
    Admits (some most) size ↔ size ≤ most.toNat := by
  rw [Admits, checkLimit_eq_ok_iff, Nat.min_eq_left hsize]
  simp

/-- A set that is accepted is the same set. -/
theorem accept_eq_ok_iff {limit : Option UInt64} {variants after : List Variant} :
    accept limit variants = .ok after ↔ variants = after ∧ Admits limit after.length := by
  rw [accept, bind_eq_ok_iff]
  constructor
  · rintro ⟨⟨⟩, hcheck, h⟩
    obtain rfl : variants = after := Except.ok.inj h
    exact ⟨rfl, hcheck⟩
  · rintro ⟨rfl, hcheck⟩
    exact ⟨(), hcheck, rfl⟩

/-- A set that is too large is refused with its size. -/
theorem accept_some {most : UInt64} {variants : List Variant}
    (hlength : variants.length ≤ largestCount) :
    accept (some most) variants =
      if most.toNat < variants.length then .error (.overLimit most variants.length)
      else .ok variants := by
  rw [accept, checkLimit, Nat.min_eq_left hlength]
  split <;> rfl

/-- A pass under a limit is a pass without one, and then a look at what came of it. -/
theorem pass_eq_accept {limit : Option UInt64} (p : Placeholder) {variants : List Variant}
    (h : Admits limit variants.length) :
    Expansion.pass limit p variants = Expansion.pass none p variants >>= accept limit := by
  cases hsearch : variants.mapM (·.firstSite? p) with
  | error e =>
    -- A search that fails comes before any count.
    rw [Expansion.pass, Expansion.pass, hsearch]
    rfl
  | ok sites =>
    have hfound := mapM_eq_ok_iff.mp hsearch
    rw [pass_eq hfound, pass_eq hfound]
    split
    · -- Nothing is counted, and the set is the one that the limit has admitted before.
      exact (accept_eq_ok_iff.mpr ⟨rfl, h⟩).symm
    · rw [requested_eq hfound]
      rfl

/-- Passes under a limit lead to the set that they lead to without one, if the limit admits it. The
sets on the way are no larger, so it admits them too. -/
theorem passes_eq_ok_iff_admits {limit : Option UInt64} {ps : List Placeholder}
    {variants after : List Variant} (h : Admits limit variants.length) :
    passes limit ps variants = .ok after ↔
      passes none ps variants = .ok after ∧ Admits limit after.length := by
  induction ps generalizing variants with
  | nil =>
    show Except.ok variants = .ok after ↔ Except.ok variants = .ok after ∧ _
    rw [iff_self_and]
    intro heq
    rwa [← Except.ok.inj heq]
  | cons p ps ih =>
    rw [passes_cons, passes_cons, pass_eq_accept p h, bind_eq_ok_iff, bind_eq_ok_iff]
    constructor
    · rintro ⟨next, hnext, hrest⟩
      obtain ⟨made, hmade, haccept⟩ := bind_eq_ok_iff.mp hnext
      obtain ⟨rfl, hadmits⟩ := accept_eq_ok_iff.mp haccept
      obtain ⟨hpasses, hafter⟩ := (ih hadmits).mp hrest
      exact ⟨⟨made, hmade, hpasses⟩, hafter⟩
    · rintro ⟨⟨made, hmade, hpasses⟩, hafter⟩
      -- The rest of the passes make no smaller set of this one.
      have hadmits : Admits limit made.length := hafter.mono (length_le_of_passes hpasses)
      exact ⟨made, bind_eq_ok_iff.mpr ⟨made, hmade, accept_eq_ok_iff.mpr ⟨rfl, hadmits⟩⟩,
        (ih hadmits).mpr ⟨hpasses, hafter⟩⟩

/-- The expansion looks at the template as at any set. -/
theorem expand_eq_accept (limit : Option UInt64) (template : Template) (ps : List Placeholder) :
    expand limit template ps = accept limit [Variant.ofTemplate template] >>= passes limit ps := by
  have hone : min [Variant.ofTemplate template].length largestCount = 1 := rfl
  rw [expand, accept, hone]
  cases checkLimit limit 1 <;> rfl

/-- An expansion under a limit succeeds if it does without one and the limit admits the set. -/
theorem expand_eq_ok_iff {limit : Option UInt64} {template : Template} {ps : List Placeholder}
    {variants : List Variant} :
    expand limit template ps = .ok variants ↔
      expand none template ps = .ok variants ∧ Admits limit variants.length := by
  show _ ↔ passes none ps [Variant.ofTemplate template] = .ok variants ∧ _
  rw [expand_eq_accept, bind_eq_ok_iff]
  constructor
  · rintro ⟨start, hstart, h⟩
    obtain ⟨rfl, hadmits⟩ := accept_eq_ok_iff.mp hstart
    exact (passes_eq_ok_iff_admits hadmits).mp h
  · rintro ⟨hpasses, hadmits⟩
    -- The template is a set of one, and no pass makes it smaller.
    have hstart := hadmits.mono (length_le_of_passes hpasses)
    exact ⟨_, accept_eq_ok_iff.mpr ⟨rfl, hstart⟩,
      (passes_eq_ok_iff_admits hstart).mpr ⟨hpasses, hadmits⟩⟩

/-! ### Where a limit stops the passes

The list of sizes belongs to the expansion without a limit. A limit looks at one size after another
and stops at the first that is too large. -/

/-- How many variants there are at the start and after each pass, when there is no limit. A pass
that fails has no size, and the passes behind it have none. -/
def sizesFrom : List Placeholder → List Variant → List Nat
  | [], variants => [variants.length]
  | p :: ps, variants =>
    variants.length ::
      match Expansion.pass none p variants with
      | .ok after => sizesFrom ps after
      | .error _ => []

/-- The sizes that the expansion of a template goes through when there is no limit. -/
def sizes (template : Template) (ps : List Placeholder) : List Nat :=
  sizesFrom ps [Variant.ofTemplate template]

/-- The first of the sizes is that of the set at the start. -/
theorem head?_sizesFrom (ps : List Placeholder) (variants : List Variant) :
    (sizesFrom ps variants).head? = some variants.length := by
  cases ps <;> rfl

/-- The size at a position is that of the set after as many passes. -/
theorem getElem?_sizesFrom {ps : List Placeholder} {count : Nat} (variants : List Variant)
    (h : count ≤ ps.length) :
    (sizesFrom ps variants)[count]? =
      (passes none (ps.take count) variants).toOption.map List.length := by
  induction ps generalizing count variants with
  | nil =>
    obtain rfl : count = 0 := Nat.le_zero.mp h
    rfl
  | cons p ps ih =>
    cases count with
    | zero => rfl
    | succ count =>
      rw [sizesFrom, List.getElem?_cons_succ, List.take_succ_cons, passes_cons]
      cases hpass : Expansion.pass none p variants with
      | error e => rfl
      | ok after => exact ih after (Nat.le_of_succ_le_succ h)

/-- The sizes never fall, and the set at the start is the smallest. -/
theorem pairwise_sizesFrom (ps : List Placeholder) (variants : List Variant) :
    (sizesFrom ps variants).Pairwise (· ≤ ·) ∧
      ∀ n ∈ sizesFrom ps variants, variants.length ≤ n := by
  induction ps generalizing variants with
  | nil => simp [sizesFrom]
  | cons p ps ih =>
    rw [sizesFrom]
    cases hpass : Expansion.pass none p variants with
    | error e => simp
    | ok after =>
      obtain ⟨hpairwise, hafter⟩ := ih after
      have hle := length_le_of_pass hpass
      -- The sizes behind the pass start at the set that it makes.
      have hall : ∀ n ∈ sizesFrom ps after, variants.length ≤ n := fun n hn =>
        hle.trans (hafter n hn)
      exact ⟨hpairwise.cons hall, List.forall_mem_cons.mpr ⟨Nat.le_refl _, hall⟩⟩

/-- The first size above the limit stops the passes. Without such a size the limit is not
noticed. -/
theorem accept_bind_passes_eq_find? {most : UInt64} {ps : List Placeholder}
    {variants : List Variant} (hcount : ∀ n ∈ sizesFrom ps variants, n ≤ largestCount) :
    accept (some most) variants >>= passes (some most) ps =
      match (sizesFrom ps variants).find? (most.toNat < ·) with
      | some n => .error (.overLimit most n)
      | none => passes none ps variants := by
  induction ps generalizing variants with
  | nil =>
    rw [sizesFrom, List.forall_mem_singleton] at hcount
    rw [sizesFrom, List.find?_singleton, accept_some hcount]
    by_cases hlt : most.toNat < variants.length <;> simp [hlt] <;> rfl
  | cons p ps ih =>
    rw [sizesFrom] at hcount ⊢
    obtain ⟨hlargest, hcount⟩ := List.forall_mem_cons.mp hcount
    rw [accept_some hlargest]
    by_cases hlt : most.toNat < variants.length
    · -- The set at the start has the first size, and it is stopped at.
      rw [if_pos hlt, List.find?_cons_of_pos (by simpa using hlt)]
      rfl
    · have hadmits : Admits (some most) variants.length :=
        (admits_some_iff hlargest).mpr (Nat.le_of_not_lt hlt)
      rw [if_neg hlt, List.find?_cons_of_neg (by simpa using hlt)]
      show passes (some most) (p :: ps) variants = _
      rw [passes_cons, passes_cons, pass_eq_accept p hadmits, bind_assoc]
      -- What follows the pass is the same statement about the next set.
      cases hpass : Expansion.pass none p variants with
      | error e => rfl
      | ok after =>
        rw [hpass] at hcount
        exact ih hcount

/-- A set that is reached without a limit has one of the sizes. -/
theorem length_mem_sizes {template : Template} {ps : List Placeholder} {count : Nat}
    {variants : List Variant} (h : expand none template (ps.take count) = .ok variants) :
    variants.length ∈ sizes template ps := by
  -- There are no more passes to take than there are placeholders.
  have hget := getElem?_sizesFrom [Variant.ofTemplate template] (Nat.min_le_right count ps.length)
  rw [← List.take_eq_take_min, show passes none (ps.take count) _ = .ok variants from h] at hget
  exact List.mem_of_getElem? hget

/-- The outcome under a limit. `sizes` lists the size after each of the passes that succeed without
a limit: it starts at one, never falls and is never zero. If a size is above the limit, the
expansion fails with the first such size. Otherwise it does what it does without a limit, be that a
set or an error. So a set is reached exactly if it is reached without the limit and is no larger
than that, and the same goes for the sets on the way. -/
theorem expand_some_eq_of_sizes (template : Template) (ps : List Placeholder) (most : UInt64)
    (hcount : ∀ n ∈ sizes template ps, n ≤ largestCount) :
    (∀ count ≤ ps.length, (sizes template ps)[count]? =
      (expand none template (ps.take count)).toOption.map List.length) ∧
    (sizes template ps).head? = some 1 ∧
    (sizes template ps).Pairwise (· ≤ ·) ∧
    0 ∉ sizes template ps ∧
    expand (some most) template ps =
      (match (sizes template ps).find? (most.toNat < ·) with
      | some n => .error (.overLimit most n)
      | none => expand none template ps) ∧
    (∀ variants, expand none template ps = .ok variants →
      (expand (some most) template ps = .ok variants ↔ variants.length ≤ most.toNat)) ∧
    ∀ count variants, expand (some most) template (ps.take count) = .ok variants →
      variants.length ≤ most.toNat := by
  obtain ⟨hpairwise, hstart⟩ := pairwise_sizesFrom ps [Variant.ofTemplate template]
  have hsize : ∀ count variants, expand none template (ps.take count) = .ok variants →
      variants.length ≤ largestCount := fun count variants h => hcount _ (length_mem_sizes h)
  refine ⟨fun count hle => getElem?_sizesFrom _ hle, head?_sizesFrom ps _, hpairwise,
    fun hzero => absurd (hstart 0 hzero) (Nat.not_succ_le_zero 0), ?_,
    fun variants h => ?_, fun count variants h => ?_⟩
  · rw [expand_eq_accept]
    exact accept_bind_passes_eq_find? hcount
  · have hle : variants.length ≤ largestCount := by
      refine hsize ps.length variants ?_
      rwa [List.take_length]
    rw [expand_eq_ok_iff, and_iff_right h, admits_some_iff hle]
  · obtain ⟨hnone, hadmits⟩ := expand_eq_ok_iff.mp h
    exact (admits_some_iff (hsize count variants hnone)).mp hadmits

/-- A template with two placeholders in one line, with two and three candidates. -/
def pairText : Text := "; %1=a,b ; %2=x,y,z\nmov %1, %2\n; %3=c\n".toList

/-- Its placeholders, one of them in a comment only and one listed twice. -/
def pairOrder : List Placeholder :=
  ["%1", "%3", "%2", "%1"].filterMap fun token => Placeholder.ofToken? token.toList

/-- Two passes find no site. The sizes are known before the limit is, and a limit of five stops the
third pass while a limit of six stops none. -/
theorem expand_some_eq_of_sizes_pairText :
    sizes (Template.ofText pairText) pairOrder = [1, 2, 2, 6, 6] ∧
      expand (some 5) (Template.ofText pairText) pairOrder = .error (.overLimit 5 6) ∧
      expand (some 6) (Template.ofText pairText) pairOrder =
        expand none (Template.ofText pairText) pairOrder := by
  have hsizes : sizes (Template.ofText pairText) pairOrder = [1, 2, 2, 6, 6] := by decide
  have hcount : ∀ n ∈ sizes (Template.ofText pairText) pairOrder, n ≤ largestCount := by
    rw [hsizes]
    decide
  obtain ⟨-, -, -, -, hfive, -⟩ := expand_some_eq_of_sizes _ _ 5 hcount
  obtain ⟨-, -, -, -, hsix, -⟩ := expand_some_eq_of_sizes _ _ 6 hcount
  rw [hsizes] at hfive hsix
  exact ⟨hsizes, hfive, hsix⟩

end AsmVariants.Proofs
