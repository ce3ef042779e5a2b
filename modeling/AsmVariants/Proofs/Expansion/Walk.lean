import AsmVariants.Proofs.Expansion.Product

/-!
# `AsmVariants.Proofs.Expansion.Walk`: the outcome of an expansion, read off the template

The passes search, count and fail on variants, which earlier passes have rewritten. `walk` knows no
variant. It goes through the placeholders once, looks each up in the template, multiplies the
numbers of their candidates and compares the product with the limit. On a clean template
`length_expand_eq_walk` says that the walk foretells the expansion: the two fail with the same
error, and if they do not fail, the walk ends with the number of variants.

The state of the walk is a `Tally`. `pass_product_eq_step` says that a pass does to the product for
the counted placeholders what a step of the walk does to the tally, and
`length_passes_eq_foldlM` is the run. A pass counts no further than the largest count and the walk
counts exactly, so the walk's limit errors are asked to stay below that count.
-/

set_option autoImplicit false

namespace AsmVariants.Proofs

open Expansion (passes checkLimit largestCount)

/-! ### The walk

The walk is a fold over the placeholders. It looks at the template only, so it can be run without
making a variant. -/

/-- What a walk has come to: the placeholders that it has counted, and the product of the numbers of
their candidates. -/
structure Tally where
  counted : List Placeholder
  count : Nat

/-- One step of the walk. A placeholder that has no site or was counted before is skipped. -/
def Tally.step (limit : Option UInt64) (template : Template) (tally : Tally) (p : Placeholder) :
    Except ExpansionError Tally :=
  match template.lines.findIdx? p.isSite with
  | none => .ok tally
  | some index =>
    if p ∈ tally.counted then .ok tally
    else
      match Candidates.above? p template.lines index with
      | none => .error (.unresolved p (index + 1))
      | some candidates => do
        checkLimit limit (tally.count * candidates.length)
        return ⟨tally.counted ++ [p], tally.count * candidates.length⟩

/-- The walk over the placeholders of a template. -/
def walk (limit : Option UInt64) (template : Template) (ps : List Placeholder) :
    Except ExpansionError Nat := do
  checkLimit limit 1
  let tally ← ps.foldlM (Tally.step limit template) ⟨[], 1⟩
  return tally.count

/-- The counted placeholders are governed by candidates, and the count is the size of their
product. -/
structure Tally.Counts (template : Template) (tally : Tally) : Prop where
  governed : ∀ q ∈ tally.counted, (governing? template q).isSome
  count_eq : tally.count = (product template tally.counted).length

section

variable {limit : Option UInt64} {template : Template} {tally : Tally} {p : Placeholder}

/-- A step skips the placeholder, fails at it, or counts its candidates. -/
theorem Tally.step_cases (limit : Option UInt64) (template : Template) (tally : Tally)
    (p : Placeholder) :
    ((p ∈ tally.counted ∨ ¬ template.lines.any p.isSite) ∧
      tally.step limit template p = .ok tally) ∨
    (∃ index, p ∉ tally.counted ∧ template.lines.findIdx? p.isSite = some index ∧
      governing? template p = none ∧
      tally.step limit template p = .error (.unresolved p (index + 1))) ∨
    (∃ candidates, p ∉ tally.counted ∧ governing? template p = some candidates ∧
      tally.step limit template p = checkLimit limit (tally.count * candidates.length) >>=
        fun _ => .ok ⟨tally.counted ++ [p], tally.count * candidates.length⟩) := by
  rw [Tally.step, governing?]
  cases hfirst : template.lines.findIdx? p.isSite with
  | none =>
    have hsite : ¬ template.lines.any p.isSite := by
      rw [← List.findIdx?_isSome, hfirst]
      exact Bool.false_ne_true
    exact Or.inl ⟨Or.inr hsite, rfl⟩
  | some index =>
    by_cases hp : p ∈ tally.counted
    · exact Or.inl ⟨Or.inl hp, if_pos hp⟩
    · simp only [if_neg hp, Option.bind_some]
      cases hlisted : Candidates.above? p template.lines index with
      | none => exact Or.inr (Or.inl ⟨index, hp, rfl, rfl, rfl⟩)
      | some candidates => exact Or.inr (Or.inr ⟨candidates, hp, rfl, rfl⟩)

/-- A step keeps the count right. -/
theorem Tally.Counts.step {next : Tally} (h : tally.Counts template)
    (hstep : tally.step limit template p = .ok next) :
    next.Counts template ∧ next.counted ⊆ p :: tally.counted := by
  obtain ⟨-, hskip⟩ | ⟨index, -, -, -, hfail⟩ | ⟨candidates, -, hgoverning, hcounted⟩ :=
    tally.step_cases limit template p
  · obtain rfl : tally = next := Except.ok.inj (hskip.symm.trans hstep)
    exact ⟨h, List.subset_cons_self p _⟩
  · exact nomatch hfail.symm.trans hstep
  · rw [hcounted] at hstep
    obtain ⟨-, -, hnext⟩ := bind_eq_ok_iff.mp hstep
    obtain rfl := Except.ok.inj hnext
    refine ⟨⟨?_, ?_⟩, ?_⟩
    · -- The new placeholder is governed, and the others were before.
      intro q hq
      rcases List.mem_append.mp hq with hq | hq
      · exact h.governed q hq
      · rw [List.mem_singleton.mp hq, hgoverning]
        rfl
    · -- The count is multiplied as the product grows.
      rw [length_product_concat hgoverning, ← h.count_eq]
    · intro q hq
      simpa [or_comm] using hq

/-! ### A count that can be reported

A pass counts up to the largest count and no further, so beyond it the walk and the pass would
report different numbers. Up to it they agree. -/

/-- A limit error of this outcome reports no count above the largest. -/
def Reportable {α : Type} (outcome : Except ExpansionError α) : Prop :=
  ∀ most n, outcome = .error (.overLimit most n) → n ≤ largestCount

/-- What fails first is what the whole reports. -/
theorem Reportable.of_bind {α β : Type} {x : Except ExpansionError α}
    {f : α → Except ExpansionError β} (h : Reportable (x >>= f)) : Reportable x := by
  intro most n hx
  refine h most n ?_
  rw [hx]
  rfl

/-- A pass counts no further than the largest count. That makes no difference where an exact count
is reportable. -/
theorem checkLimit_min {count : Nat} (h : Reportable (checkLimit limit count)) :
    checkLimit limit (min count largestCount) = checkLimit limit count := by
  cases limit with
  | none => rfl
  | some most =>
    by_cases hle : count ≤ largestCount
    · rw [Nat.min_eq_left hle]
    · -- Every limit is below such a count, so the count would be reported.
      have hlimit : most.toNat ≤ largestCount := Nat.le_pred_of_lt most.toNat_lt
      have hover : most.toNat < count := by omega
      exact absurd (h most count (if_pos hover)) hle

/-! ### Passes and steps

A pass over a product keeps it, fails, or leads to the product with one placeholder more. Each of
these is what a step of the walk does. -/

/-- A pass over the product for the counted placeholders is a step of the walk. -/
theorem pass_product_eq_step (clean : Clean template tally.counted) (h : tally.Counts template)
    (hreport : Reportable (tally.step limit template p)) :
    Expansion.pass limit p (product template tally.counted) =
      (tally.step limit template p).map fun next => product template next.counted := by
  obtain ⟨hsettled, hskip⟩ | ⟨index, hp, hfirst, hgoverning, hfail⟩ |
    ⟨candidates, hp, hgoverning, hcounted⟩ := tally.step_cases limit template p
  · rw [hskip, pass_product_settled limit clean hsettled]
    rfl
  · rw [hfail, pass_product_unresolved limit clean h.governed hp hfirst hgoverning]
    rfl
  · rw [hcounted] at hreport ⊢
    -- The pass counts the variants that it would make, and the walk multiplies.
    have hlength : (product template (tally.counted ++ [p])).length =
        tally.count * candidates.length := by
      rw [length_product_concat hgoverning, h.count_eq]
    rw [pass_product_governed limit clean h.governed hp hgoverning, hlength,
      checkLimit_min hreport.of_bind]
    cases checkLimit limit (tally.count * candidates.length) <;> rfl

/-- The passes over a product end as the walk does from its tally. -/
theorem length_passes_eq_foldlM {all ps : List Placeholder} (clean : Clean template all)
    (hps : ps ⊆ all) (hcounted : tally.counted ⊆ all) (h : tally.Counts template)
    (hreport : Reportable (ps.foldlM (Tally.step limit template) tally)) :
    (passes limit ps (product template tally.counted)).map List.length =
      (ps.foldlM (Tally.step limit template) tally).map Tally.count := by
  induction ps generalizing tally with
  | nil =>
    show Except.ok _ = Except.ok _
    rw [h.count_eq]
  | cons p ps ih =>
    obtain ⟨hp, hps⟩ := List.cons_subset.mp hps
    rw [List.foldlM_cons] at hreport ⊢
    rw [passes_cons, pass_product_eq_step (clean.mono hcounted) h hreport.of_bind]
    -- Where the step fails, both have ended with its error.
    cases hstep : tally.step limit template p with
    | error e => rfl
    | ok next =>
      rw [hstep] at hreport
      obtain ⟨hnext, hsub⟩ := h.step hstep
      have hnextCounted : next.counted ⊆ all := fun q hq =>
        List.cons_subset.mpr ⟨hp, hcounted⟩ (hsub hq)
      exact ih hps hnextCounted hnext hreport

end

/-- The expansion of a clean template does what the walk over the template foretells. It fails with
the error of the first step that fails, and if none does, it succeeds with as many variants as the
walk has counted. -/
theorem length_expand_eq_walk {template : Template} {ps : List Placeholder}
    (limit : Option UInt64) (clean : Clean template ps)
    (hreport : Reportable (walk limit template ps)) :
    (expand limit template ps).map List.length = walk limit template ps := by
  -- The template is the product for no placeholder.
  have hstart : (⟨[], 1⟩ : Tally).Counts template := by
    refine ⟨fun q hq => absurd hq List.not_mem_nil, ?_⟩
    rw [product_nil]
    rfl
  rw [expand, ← product_nil]
  rw [walk] at hreport ⊢
  cases hcheck : checkLimit limit 1 with
  | error e => rfl
  | ok =>
    rw [hcheck] at hreport
    have hfold : Reportable (ps.foldlM (Tally.step limit template) ⟨[], 1⟩ >>= fun tally =>
        .ok tally.count) := hreport
    exact length_passes_eq_foldlM clean (List.Subset.refl ps) (List.nil_subset ps) hstart
      hfold.of_bind

/-- A template with a placeholder on two sites, one in a comment only, and one without candidates on
the last line. -/
def unlistedText : Text := "; %1=a,b\nmov %1, %1\n; %4 ; %2=c,d,e\nadd %1%2\nsub %3".toList

/-- Its placeholders, with `%1` listed twice and one that does not stand in the template. -/
def unlistedOrder : List Placeholder :=
  ["%4", "%1", "%9", "%1", "%2", "%3"].filterMap fun token => Placeholder.ofToken? token.toList

/-- Without a limit the expansion fails at `%3` on line 5. A limit of five stops it before that. -/
theorem length_expand_eq_walk_unlistedText :
    (expand none (Template.ofText unlistedText) unlistedOrder).map List.length =
        .error (.unresolved ⟨['3'], by decide, by decide⟩ 5) ∧
      (expand (some 5) (Template.ofText unlistedText) unlistedOrder).map List.length =
        .error (.overLimit 5 6) := by
  have clean : Clean (Template.ofText unlistedText) unlistedOrder := by decide
  have hnone : walk none (Template.ofText unlistedText) unlistedOrder =
      .error (.unresolved ⟨['3'], by decide, by decide⟩ 5) := rfl
  have hfive : walk (some 5) (Template.ofText unlistedText) unlistedOrder =
      .error (.overLimit 5 6) := rfl
  rw [← hnone, ← hfive]
  refine ⟨length_expand_eq_walk none clean ?_, length_expand_eq_walk (some 5) clean ?_⟩
  · intro most n h
    exact nomatch hnone.symm.trans h
  · intro most n h
    cases hfive.symm.trans h
    decide

end AsmVariants.Proofs
