import AsmVariants.Proofs.Expansion.DepthFirst
import AsmVariants.Proofs.Expansion.Limit

/-!
# `AsmVariants.Proofs.Expansion.Lexicographic`: variants come in the order of their choices

Variants of one expansion can have made choices for different placeholders, and not equally many. A
value can bring in a token, and then this variant has a site in a later pass while its neighbour has
none. Still any two of them part at a position where both have chosen for the same placeholder, and
the one that comes first has picked the earlier candidate there (`Precedes`). So no list of choices
is the beginning of another.

The order is read off the depth-first expansion. All that comes of a variant has the choices of this
variant in front, so what comes of two copies parts where the copies do. `Ordered` is what holds of
all that comes of a variant, `ordered_flatten` is the step from the copies to the variant, and
`ordered_of_depthFirst` is the run.
-/

set_option autoImplicit false

namespace AsmVariants.Proofs

open Expansion (passes)

/-! ### The order of choices

Two lists are compared at the first position where they differ. There is no case for a list that
ends before, and none is needed. -/

/-- One list of choices comes before another: they agree up to a position, and there they choose for
the same placeholder, the first of them an earlier candidate. -/
def Precedes (xs ys : List Choice) : Prop :=
  ∃ k x y, xs.take k = ys.take k ∧ xs[k]? = some x ∧ ys[k]? = some y ∧
    x.placeholder = y.placeholder ∧ x.index < y.index

/-- Behind the position where two lists part, they can go on in any way. -/
theorem precedes_append (common : List Choice) {x y : Choice} (xs ys : List Choice)
    (hplaceholder : x.placeholder = y.placeholder) (hindex : x.index < y.index) :
    Precedes (common ++ x :: xs) (common ++ y :: ys) := by
  refine ⟨common.length, x, y, ?_, ?_, ?_, hplaceholder, hindex⟩
  · rw [List.take_left, List.take_left]
  · rw [List.getElem?_append_right (Nat.le_refl _), Nat.sub_self, List.getElem?_cons_zero]
  · rw [List.getElem?_append_right (Nat.le_refl _), Nat.sub_self, List.getElem?_cons_zero]

/-- Lists that part are no beginnings of each other. -/
theorem Precedes.not_isPrefix {xs ys : List Choice} (h : Precedes xs ys) :
    ¬ xs <+: ys ∧ ¬ ys <+: xs := by
  -- Both lists reach the position at which they part, and there they differ.
  obtain ⟨k, x, y, -, hx, hy, -, hindex⟩ := h
  constructor
  · rintro ⟨rest, rfl⟩
    have hk : k < xs.length := (List.getElem?_eq_some_iff.mp hx).1
    rw [List.getElem?_append_left hk, hx, Option.some.injEq] at hy
    rw [hy] at hindex
    exact Nat.lt_irrefl _ hindex
  · rintro ⟨rest, rfl⟩
    have hk : k < ys.length := (List.getElem?_eq_some_iff.mp hy).1
    rw [List.getElem?_append_left hk, hy, Option.some.injEq] at hx
    rw [hx] at hindex
    exact Nat.lt_irrefl _ hindex

/-! ### What comes of a variant

The parts of the depth-first expansion are taken one after another, a part for each candidate. All
lists in a part have the candidate's choice in the same position. -/

/-- What comes of a variant when some placeholders are still to be expanded:

- `ne_nil`: something does;
- `continues`: the choices of the variant come first, and more of them are made for some of the
  placeholders, in their order;
- `pairwise`: the variants stand in the order of their choices. -/
structure Ordered (ps : List Placeholder) (start : Variant) (variants : List Variant) : Prop where
  ne_nil : variants ≠ []
  continues : ∀ variant ∈ variants, ∃ more, variant.choices = start.choices ++ more ∧
    (more.map Choice.placeholder).Sublist ps
  pairwise : variants.Pairwise fun a b => Precedes a.choices b.choices

section

variable {p : Placeholder} {ps : List Placeholder} {variant : Variant} {candidates : List Text}
  {parts : List (List Variant)}

/-- A placeholder that is passed over changes nothing. -/
theorem Ordered.cons {variants : List Variant} (h : Ordered ps variant variants) :
    Ordered (p :: ps) variant variants where
  ne_nil := h.ne_nil
  continues after hmem := by
    obtain ⟨more, hmore, hsublist⟩ := h.continues after hmem
    exact ⟨more, hmore, hsublist.cons p⟩
  pairwise := h.pairwise

/-- What comes of the copies of a variant, copy by copy, comes of the variant. -/
theorem ordered_flatten (hne : candidates ≠ [])
    (h : List.Forall₂ (fun candidate part =>
      Ordered ps (withChoice variant ⟨p, candidate.2, candidate.1⟩) part)
      candidates.zipIdx parts) : Ordered (p :: ps) variant parts.flatten := by
  have hlength : parts.length = candidates.length := by
    rw [← h.length_eq, List.length_zipIdx]
  have hpart : ∀ (i : Nat) (hi : i < parts.length),
      ∃ value, Ordered ps (withChoice variant ⟨p, i, value⟩) parts[i] := by
    intro i hi
    have hcandidate : i < candidates.zipIdx.length := h.length_eq ▸ hi
    have hget := h.get hcandidate hi
    simp only [List.get_eq_getElem, List.getElem_zipIdx, Nat.zero_add] at hget
    exact ⟨_, hget⟩
  -- What comes of the copy at a position begins with the choice of this position.
  have hbegins : ∀ (i : Nat) (hi : i < parts.length), ∀ after ∈ parts[i], ∃ value more,
      after.choices = variant.choices ++ ⟨p, i, value⟩ :: more ∧
        (more.map Choice.placeholder).Sublist ps := by
    intro i hi after hmem
    obtain ⟨value, hordered⟩ := hpart i hi
    obtain ⟨more, hmore, hsublist⟩ := hordered.continues after hmem
    refine ⟨value, more, ?_, hsublist⟩
    rw [hmore, withChoice, List.append_assoc, List.singleton_append]
  refine { ne_nil := ?ne_nil, continues := ?continues, pairwise := ?pairwise }
  case ne_nil =>
    have hpos : 0 < parts.length := hlength ▸ List.length_pos_iff.mpr hne
    obtain ⟨value, hordered⟩ := hpart 0 hpos
    obtain ⟨after, hmem⟩ := List.exists_mem_of_ne_nil _ hordered.ne_nil
    exact List.ne_nil_of_mem (List.mem_flatten.mpr ⟨_, List.getElem_mem hpos, hmem⟩)
  case continues =>
    intro after hmem
    obtain ⟨part, hpartMem, hafter⟩ := List.mem_flatten.mp hmem
    obtain ⟨i, hi, rfl⟩ := List.getElem_of_mem hpartMem
    obtain ⟨value, more, hmore, hsublist⟩ := hbegins i hi after hafter
    exact ⟨⟨p, i, value⟩ :: more, hmore, hsublist.cons_cons p⟩
  case pairwise =>
    refine List.pairwise_flatten.mpr ⟨?_, List.pairwise_iff_getElem.mpr ?_⟩
    · -- Within what comes of one copy, the order is known.
      intro part hpartMem
      obtain ⟨i, hi, rfl⟩ := List.getElem_of_mem hpartMem
      obtain ⟨value, hordered⟩ := hpart i hi
      exact hordered.pairwise
    · -- What comes of two copies parts where the copies part.
      intro i j hi hj hij a ha b hb
      obtain ⟨value, more, hchoices, -⟩ := hbegins i hi a ha
      obtain ⟨value', more', hchoices', -⟩ := hbegins j hj b hb
      rw [hchoices, hchoices']
      exact precedes_append variant.choices more more' rfl hij

/-- All that comes of a variant comes in the order of the choices. -/
theorem ordered_of_depthFirst {after : List Variant} (h : depthFirst ps variant = .ok after) :
    Ordered ps variant after := by
  -- Each copy is expanded for the placeholders that are left, so the variant is general.
  induction ps generalizing variant after with
  | nil =>
    obtain rfl : [variant] = after := Except.ok.inj h
    refine ⟨List.cons_ne_nil _ _, List.forall_mem_singleton.mpr ⟨[], ?_, List.Sublist.refl []⟩,
      List.pairwise_singleton _ _⟩
    rw [List.append_nil]
  | cons p ps ih =>
    rcases depthFirst_cons_eq_ok_iff.mp h with ⟨-, hrest⟩ | ⟨site, parts, hsite, hparts, rfl⟩
    · exact (ih hrest).cons
    · exact ordered_flatten (List.length_pos_iff.mp (branchCount_pos hsite))
        (hparts.imp fun _ _ => ih)

end

/-- The variants of an expansion come in the order of their choices: any two of them part at a
position where both choose for the same placeholder, the first of them an earlier candidate. So the
choices of no variant are those of another, or the beginning of them. In each variant, the
placeholders that were chosen for are some of those listed, in the order of the list. There is
always a variant. -/
theorem expand_pairwise_precedes {limit : Option UInt64} {template : Template}
    {ps : List Placeholder} {variants : List Variant}
    (h : expand limit template ps = .ok variants) :
    variants.Pairwise (fun a b => Precedes a.choices b.choices ∧
      ¬ a.choices <+: b.choices ∧ ¬ b.choices <+: a.choices) ∧
    (∀ variant ∈ variants, (variant.choices.map Choice.placeholder).Sublist ps) ∧
    variants ≠ [] := by
  have hpasses : passes none ps [Variant.ofTemplate template] = .ok variants :=
    passes_of_expand (expand_eq_ok_iff.mp h).1
  have hordered := ordered_of_depthFirst (passes_singleton_eq_ok_iff.mp hpasses)
  refine ⟨hordered.pairwise.imp fun hprecedes => ⟨hprecedes, hprecedes.not_isPrefix⟩, ?_,
    hordered.ne_nil⟩
  intro variant hmem
  obtain ⟨more, hmore, hsublist⟩ := hordered.continues variant hmem
  -- The template has no choices, so those of the variant are all new.
  rw [hmore]
  exact hsublist

/-- A template in which the second of three values of `%1` is the token `%2`. -/
def raggedText : Text := "; %2=a,b ; %1=x,%2,y\nmov %1\n".toList

/-- Its placeholders, after one that does not stand in the template. -/
def raggedOrder : List Placeholder :=
  ["%3", "%1", "%2"].filterMap fun token => Placeholder.ofToken? token.toList

/-- Two variants with two choices stand between two variants with one. -/
theorem expand_pairwise_precedes_raggedText :
    ∃ variants, expand (some 4) (Template.ofText raggedText) raggedOrder = .ok variants ∧
      variants.map (fun variant => variant.choices.map Choice.index) =
        [[0], [1, 0], [1, 1], [2]] ∧
      variants.Pairwise fun a b => Precedes a.choices b.choices := by
  have hindices : (expand (some 4) (Template.ofText raggedText) raggedOrder).map
      (List.map fun variant => variant.choices.map Choice.index) =
        .ok [[0], [1, 0], [1, 1], [2]] := rfl
  obtain ⟨variants, h, hvariants⟩ := map_eq_ok_iff.mp hindices
  exact ⟨variants, h, hvariants, (expand_pairwise_precedes h).1.imp fun hpair => hpair.1⟩

end AsmVariants.Proofs
