import AsmVariants.Proofs.Expansion.Product

/-!
# `AsmVariants.Proofs.Expansion.Numbering`: how many variants there are, and which is which

The variants of a clean template are numbered like an odometer. The last placeholder turns
fastest, and each wheel has as many digits as its placeholder has candidates. `digits` reads a
number off the wheels, and `digits_spec` says that they spell the number.

* `getElem?_fanOut`: at a position in a fan-out stands the list that takes the member at each
  digit of the position.
* `choices_eq_digits`: the expansion of a clean template succeeds, the variants are as many as the
  counts of candidates multiply to, and the choices of each are the digits of its position.
-/

set_option autoImplicit false

namespace AsmVariants.Proofs

/-! ### Digits

The radices are the numbers of candidates, from the first placeholder to the last. The first digit
counts the most, as the first placeholder turns slowest. -/

/-- The digits of a number for some radices, the most significant digit first. -/
def digits : List Nat → Nat → List Nat
  | [], _ => []
  | _ :: radices, n => n / radices.prod :: digits radices (n % radices.prod)

/-- The number that some digits spell. -/
def spell : List Nat → List Nat → Nat
  | _ :: radices, d :: ds => d * radices.prod + spell radices ds
  | _, _ => 0

/-- Each digit is below its radix, and the digits spell the number. -/
theorem digits_spec {radices : List Nat} {n : Nat} (h : n < radices.prod) :
    List.Forall₂ (fun d radix => d < radix) (digits radices n) radices ∧
      spell radices (digits radices n) = n := by
  induction radices generalizing n with
  | nil =>
    have hzero : n = 0 := by simpa using h
    subst hzero
    exact ⟨List.Forall₂.nil, rfl⟩
  | cons radix radices ih =>
    rw [List.prod_cons] at h
    -- The first digit is the quotient by the product of the other radices, and the others spell the
    -- remainder.
    have hpos : 0 < radices.prod := Nat.pos_of_mul_pos_left (Nat.zero_lt_of_lt h)
    obtain ⟨hbelow, hspell⟩ := ih (Nat.mod_lt n hpos)
    refine ⟨List.Forall₂.cons (Nat.div_lt_of_lt_mul (Nat.mul_comm _ _ ▸ h)) hbelow, ?_⟩
    rw [digits, spell, hspell, Nat.mul_comm]
    exact Nat.div_add_mod n radices.prod

example : digits [2, 3, 2] 7 = [1, 0, 1] := by decide

/-! ### Positions in a fan-out

The fan-out of some lists is a row of blocks, one for each member of the first list, and all blocks
have the size of the rest. -/

/-- In a row of blocks that are all as long, the position names the block and the place in it. -/
theorem getElem?_flatMap_of_length {α β : Type} {f : α → List β} {size : Nat} {l : List α}
    (hsize : ∀ a ∈ l, (f a).length = size) (hpos : 0 < size) (n : Nat) :
    (l.flatMap f)[n]? = l[n / size]?.bind fun a => (f a)[n % size]? := by
  induction l generalizing n with
  | nil => simp
  | cons a l ih =>
    have hlength : (f a).length = size := hsize a List.mem_cons_self
    rw [List.flatMap_cons]
    by_cases hn : n < size
    · -- The position is in the first block.
      rw [List.getElem?_append_left (by omega), Nat.div_eq_of_lt hn, Nat.mod_eq_of_lt hn]
      rfl
    · -- The position is behind the first block, so one block is taken off.
      obtain ⟨m, rfl⟩ : ∃ m, n = m + size := ⟨n - size, by omega⟩
      rw [List.getElem?_append_right (by omega), hlength, Nat.add_sub_cancel,
        ih (fun b hb => hsize b (List.mem_cons_of_mem a hb)), Nat.add_div_right m hpos,
        Nat.add_mod_right, List.getElem?_cons_succ]

/-- At a position stands the list that takes the member at each digit of the position. -/
theorem getElem?_fanOut {α : Type} {ls : List (List α)} {n : Nat}
    (h : n < (ls.map List.length).prod) :
    ∃ as, (fanOut ls)[n]? = some as ∧
      as.map some = List.zipWith (fun l d => l[d]?) ls (digits (ls.map List.length) n) := by
  induction ls generalizing n with
  | nil =>
    have hzero : n = 0 := by simpa using h
    subst hzero
    exact ⟨[], rfl, rfl⟩
  | cons l ls ih =>
    rw [List.map_cons, List.prod_cons] at h
    have hpos : 0 < (ls.map List.length).prod := Nat.pos_of_mul_pos_left (Nat.zero_lt_of_lt h)
    have hdigit : n / (ls.map List.length).prod < l.length :=
      Nat.div_lt_of_lt_mul (Nat.mul_comm _ _ ▸ h)
    obtain ⟨as, has, hdigits⟩ := ih (Nat.mod_lt n hpos)
    -- The blocks are as long as the fan-out of the other lists.
    refine ⟨l[n / (ls.map List.length).prod] :: as, ?_, ?_⟩
    · rw [fanOut, getElem?_flatMap_of_length (fun a _ => ?_) hpos, List.getElem?_eq_getElem hdigit,
        Option.bind_some, List.getElem?_map, has, Option.map_some]
      rw [List.length_map, length_fanOut]
    · rw [List.map_cons, hdigits, List.map_cons, digits, List.zipWith_cons_cons,
        List.getElem?_eq_getElem hdigit]

/-! ### The choices at a position -/

section

variable {template : Template} {qs : List Placeholder} {lists : List (List Text)}

/-- The choices that can be made are as many as the candidates. -/
theorem length_choicesFor (h : qs.map (governing? template) = lists.map some) :
    (qs.map (choicesFor template)).map List.length = lists.map List.length := by
  have hlists : (qs.map (governing? template)).map (fun found => found.getD []) = lists := by
    rw [h, List.map_map]
    exact List.map_id lists
  rw [← hlists, List.map_map, List.map_map, List.map_map]
  refine List.map_congr_left fun q _ => ?_
  show (choicesFor template q).length = ((governing? template q).getD []).length
  rw [choicesFor, List.length_map, List.length_zipIdx]

/-- The choice at a position picks the candidate at that position. -/
theorem zipWith_choicesFor (h : qs.map (governing? template) = lists.map some) (ds : List Nat) :
    List.zipWith (fun l d => l[d]?) (qs.map (choicesFor template)) ds =
      List.zipWith3 (fun p candidates d => candidates[d]?.map fun value => ⟨p, d, value⟩)
        qs lists ds := by
  induction qs generalizing lists ds with
  | nil => rfl
  | cons q qs ih =>
    cases lists with
    | nil => exact nomatch h
    | cons candidates lists =>
      cases ds with
      | nil => rfl
      | cons d ds =>
        -- The candidates of the first placeholder are the first list.
        obtain ⟨hgoverning, hrest⟩ := List.cons.inj h
        have hchoice : (choicesFor template q)[d]? =
            candidates[d]?.map fun value => ⟨q, d, value⟩ := by
          rw [choicesFor, hgoverning, Option.getD_some, List.getElem?_map, List.getElem?_zipIdx,
            Option.map_map, Nat.zero_add]
          rfl
        rw [List.map_cons, List.zipWith_cons_cons, ih hrest, hchoice]
        rfl

end

/-- If candidates govern every placeholder that has a site in a clean template, the expansion
succeeds with as many variants as the counts of candidates multiply to. The choices of the variant
at a position take, for each placeholder, the candidate at its digit of the position. -/
theorem choices_eq_digits (text : Text) (ps : List Placeholder) {lists : List (List Text)}
    (clean : Clean (Template.ofText text) ps)
    (h : (sited (Template.ofText text) ps).map (governing? (Template.ofText text)) =
      lists.map some) :
    ∃ variants, expand none (Template.ofText text) ps = .ok variants ∧
      variants.length = (lists.map List.length).prod ∧
      ∀ n < (lists.map List.length).prod, ∃ variant, variants[n]? = some variant ∧
        variant.choices.map some =
          List.zipWith3 (fun p candidates d => candidates[d]?.map fun value => ⟨p, d, value⟩)
            (sited (Template.ofText text) ps) lists (digits (lists.map List.length) n) := by
  -- There is a list for each placeholder with a site, so each is governed.
  have hgoverned : ∀ q ∈ sited (Template.ofText text) ps,
      (governing? (Template.ofText text) q).isSome := by
    intro q hq
    have hmem := List.mem_map_of_mem (f := governing? (Template.ofText text)) hq
    rw [h, List.mem_map] at hmem
    obtain ⟨candidates, -, hgoverning⟩ := hmem
    rw [← hgoverning]
    rfl
  refine ⟨_, (passes_eq_ok_iff clean).mpr ⟨hgoverned, rfl⟩, ?_, fun n hn => ?_⟩
  · rw [product, List.length_map, choiceLists, length_fanOut, length_choicesFor h]
  · rw [← length_choicesFor h] at hn
    obtain ⟨choices, hchoices, hdigits⟩ := getElem?_fanOut hn
    refine ⟨filled (Template.ofText text) choices, ?_, ?_⟩
    · rw [product, choiceLists, List.getElem?_map, hchoices]
      rfl
    · show choices.map some = _
      rw [hdigits, length_choicesFor h, zipWith_choicesFor h]

/-- A template with adjacent tokens. `%2` has an empty candidate, and `%1` has one that is a
digit. -/
def adjacentText : Text := "; %2=,a ; %1=5,r2\nmov %1%2, %1\n; %3=x\n".toList

/-- Its placeholders, with `%2` listed twice, after one that does not stand in the template and
before one that stands in a comment only. -/
def adjacentOrder : List Placeholder :=
  ["%9", "%2", "%1", "%2", "%3"].filterMap fun token => Placeholder.ofToken? token.toList

/-- The variant at position 2 of the four has the digits 1 and 0. -/
theorem choices_eq_digits_adjacentText :
    ∃ variants, expand none (Template.ofText adjacentText) adjacentOrder = .ok variants ∧
      variants.length = 4 ∧
      ∃ variant, variants[2]? = some variant ∧
        variant.choices.map some =
          [some ⟨⟨['2'], by decide, by decide⟩, 1, ['a']⟩,
            some ⟨⟨['1'], by decide, by decide⟩, 0, ['5']⟩] := by
  have clean : Clean (Template.ofText adjacentText) adjacentOrder := by decide
  have hlists : (sited (Template.ofText adjacentText) adjacentOrder).map
      (governing? (Template.ofText adjacentText)) =
      [[[], ['a']], [['5'], ['r', '2']]].map some := by decide
  obtain ⟨variants, h, hlength, hchoices⟩ :=
    choices_eq_digits adjacentText adjacentOrder clean hlists
  obtain ⟨variant, hvariant, hdigits⟩ := hchoices 2 (by decide)
  exact ⟨variants, h, hlength, variant, hvariant, hdigits⟩

end AsmVariants.Proofs
