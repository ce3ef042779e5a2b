import Mathlib.Data.List.Induction
import Mathlib.Data.List.Nodup

/-!
# `AsmVariants.Proofs.List`: lists read, cut and joined

Lists are read from the front here: of equal members the first one counts, and so does the first of
two entries for one key. `eraseDups_append_eraseDups` and `eraseDups_filter` say what becomes of
first occurrences when lists are joined or thinned out, and by `eq_of_lookup_eq` an association list
is its keys, in their order, and what is found under each. `append_eq_append_cons_iff` is about a
list that is cut in two ways, once at a member, and `append_cons_inj_first` about one that is cut
where the member occurs first. `intercalate_append_cons` is about a list that is joined of parts,
and `intercalate_cons` and `intercalate_concat` look at its first part and at its last one.

The last section is about machines that read a list member by member and can stop at any of them.
`foldlM_append_of_eq_some` goes on where a part is read, and `of_foldlM_eq_some` is the induction
for what a machine knows of the members that it has read.
-/

set_option autoImplicit false

namespace AsmVariants.Proofs

/-- A member at the end is a first occurrence exactly if it is new. -/
theorem eraseDups_concat {α : Type} [BEq α] [LawfulBEq α] (xs : List α) (x : α) :
    (xs ++ [x]).eraseDups = if x ∈ xs then xs.eraseDups else xs.eraseDups ++ [x] := by
  rw [List.eraseDups_append]
  split
  · next h => simp [List.removeAll, h]
  · next h => simp [List.removeAll, h, List.eraseDups_cons]

/-- A list of first occurrences has no repetitions. -/
theorem nodup_eraseDups {α : Type} [BEq α] [LawfulBEq α] (xs : List α) : xs.eraseDups.Nodup := by
  induction xs using List.reverseRecOn with
  | nil => exact List.nodup_nil
  | append_singleton xs x ih =>
    rw [eraseDups_concat]
    split
    · exact ih
    · next hnew =>
      rw [← List.concat_eq_append]
      exact ih.concat (mt List.mem_eraseDups.mp hnew)

/-- The first occurrences in a list are the same when another list in front of it is taken with its
own first occurrences only. -/
theorem eraseDups_append_eraseDups {α : Type} [BEq α] [LawfulBEq α] (xs ys : List α) :
    (xs.eraseDups ++ ys).eraseDups = (xs ++ ys).eraseDups := by
  induction ys using List.reverseRecOn with
  | nil =>
    rw [List.append_nil, List.append_nil]
    induction xs using List.reverseRecOn with
    | nil => rfl
    | append_singleton xs x ih =>
      rw [eraseDups_concat]
      split
      · exact ih
      · next hnew => rw [eraseDups_concat, if_neg (mt List.mem_eraseDups.mp hnew), ih]
  | append_singleton ys y ih =>
    -- Whether the last member is new does not depend on how often the others occur.
    rw [← List.append_assoc, ← List.append_assoc, eraseDups_concat, eraseDups_concat, ih]
    simp only [List.mem_append, List.mem_eraseDups]

/-- There is no first occurrence only where there is no member. -/
theorem eraseDups_eq_nil_iff {α : Type} [BEq α] [LawfulBEq α] {xs : List α} :
    xs.eraseDups = [] ↔ xs = [] := by
  cases xs with
  | nil => simp
  | cons x xs => simp [List.eraseDups_cons]

/-- Leaving members out makes no other occurrence of a member the first. -/
theorem eraseDups_filter {α : Type} [BEq α] [LawfulBEq α] (test : α → Bool) (xs : List α) :
    (xs.filter test).eraseDups = xs.eraseDups.filter test := by
  induction xs using List.reverseRecOn with
  | nil => rfl
  | append_singleton xs x ih =>
    rw [List.filter_append, eraseDups_concat]
    cases hx : test x with
    | false =>
      rw [List.filter_cons_of_neg (by simp [hx]), List.filter_nil, List.append_nil, ih]
      split
      · rfl
      · simp [hx]
    | true =>
      have hmem : x ∈ xs.filter test ↔ x ∈ xs := by simp [hx]
      rw [List.filter_cons_of_pos hx, List.filter_nil, eraseDups_concat, ih]
      simp only [hmem]
      split
      · rfl
      · simp [hx]

/-- A search for what is not in a list passes every member. -/
theorem bne_of_notMem {α : Type} [BEq α] [LawfulBEq α] {x : α} {xs : List α} (h : x ∉ xs) :
    ∀ y ∈ xs, (y != x) = true := by
  intro y hy
  rw [bne_iff_ne]
  rintro rfl
  exact h hy

/-- The first entry for a key counts. -/
theorem lookup_cons_eq_ite {α β : Type} [DecidableEq α] [BEq α] [LawfulBEq α] (key other : α)
    (value : β) (entries : List (α × β)) :
    ((key, value) :: entries).lookup other =
      if other = key then some value else entries.lookup other := by
  by_cases h : other = key
  · subst h
    rw [List.lookup_cons_self, if_pos rfl]
  · rw [List.lookup_cons, beq_false_of_ne h, if_neg h]

/-- Nothing is found under a key that no entry has. -/
theorem lookup_eq_none_of_notMem {α β : Type} [BEq α] [LawfulBEq α] {key : α}
    {entries : List (α × β)} (h : key ∉ entries.map Prod.fst) : entries.lookup key = none := by
  rw [List.lookup_eq_none_iff]
  intro entry hmem
  rw [bne_iff_ne]
  rintro rfl
  exact h (List.mem_map_of_mem hmem)

/-- An association list in which no key occurs twice is told by its keys, in their order, and by
what is found under each of them. -/
theorem eq_of_lookup_eq {α β : Type} [DecidableEq α] [BEq α] [LawfulBEq α]
    {entries others : List (α × β)} (nodup : (entries.map Prod.fst).Nodup)
    (hkeys : entries.map Prod.fst = others.map Prod.fst)
    (hlookup : ∀ key, entries.lookup key = others.lookup key) : entries = others := by
  induction entries generalizing others with
  | nil => exact (List.map_eq_nil_iff.mp hkeys.symm).symm
  | cons entry entries ih =>
    obtain ⟨key, value⟩ := entry
    cases others with
    | nil => exact nomatch hkeys
    | cons other others =>
      obtain ⟨key', value'⟩ := other
      obtain ⟨rfl, hrest⟩ := List.cons.inj hkeys
      obtain ⟨hnew, nodup⟩ := List.nodup_cons.mp nodup
      -- The first entries hold what is found under their key.
      have hvalue := hlookup key
      rw [List.lookup_cons_self, List.lookup_cons_self] at hvalue
      obtain rfl := Option.some.inj hvalue
      -- Nothing is found under that key behind them, and under others they make no difference.
      have hlookup' : ∀ other, entries.lookup other = others.lookup other := by
        intro other
        by_cases h : other = key
        · rw [h, lookup_eq_none_of_notMem hnew, lookup_eq_none_of_notMem (hrest ▸ hnew)]
        · have hother := hlookup other
          rwa [lookup_cons_eq_ite, lookup_cons_eq_ite, if_neg h, if_neg h] at hother
      rw [ih nodup hrest hlookup']

/-- Where a list is cut into two parts, a member of it is in the first part or in the second. -/
theorem append_eq_append_cons_iff {α : Type} {a b c d : List α} {x : α} :
    a ++ b = c ++ x :: d ↔
      (∃ e, a = c ++ x :: e ∧ d = e ++ b) ∨ ∃ e, c = a ++ e ∧ b = e ++ x :: d := by
  constructor
  · intro h
    rcases List.append_eq_append_iff.mp h with ⟨e, hc, hb⟩ | ⟨e, ha, hd⟩
    · exact .inr ⟨e, hc, hb⟩
    · cases e with
      | nil => exact .inr ⟨[], by simpa using ha.symm, by simpa using hd.symm⟩
      | cons y e =>
        obtain ⟨rfl, rfl⟩ := List.cons.inj hd
        exact .inl ⟨e, ha, rfl⟩
  · rintro (⟨e, rfl, rfl⟩ | ⟨e, rfl, rfl⟩) <;> simp

/-- A member has one first occurrence. -/
theorem append_cons_inj_first {α : Type} {a b c d : List α} {x : α} (ha : x ∉ a) (hc : x ∉ c)
    (h : a ++ x :: b = c ++ x :: d) : a = c ∧ b = d := by
  rcases append_eq_append_cons_iff.mp h with ⟨e, hin, -⟩ | ⟨e, hc', hb⟩
  · exact absurd (by simp [hin]) ha
  · cases e with
    | nil => exact ⟨by simp [hc'], (List.cons.inj hb).2⟩
    | cons y e => exact absurd (by simp [hc', (List.cons.inj hb).1]) hc

/-- A list that is joined of parts is one of the parts, what stands before it, and what stands
behind it. -/
theorem intercalate_append_cons {α : Type} (x : α) (front back : List (List α)) (t : List α) :
    [x].intercalate (front ++ t :: back) =
      front.flatMap (· ++ [x]) ++ (t ++ back.flatMap (x :: ·)) := by
  induction front with
  | nil =>
    rw [List.nil_append, List.flatMap_nil, List.nil_append]
    induction back generalizing t with
    | nil => simp
    | cons next back ih =>
      rw [List.intercalate_cons_of_ne_nil (List.cons_ne_nil next back), ih, List.flatMap_cons,
        List.append_assoc]
      rfl
  | cons first front ih =>
    -- There is a part behind the first one, so a separator stands between them.
    have hne : front ++ t :: back ≠ [] := by simp
    rw [List.cons_append, List.intercalate_cons_of_ne_nil hne, ih, List.flatMap_cons]
    simp only [List.append_assoc]

/-- A list that is joined of parts is its first part, and then each other part behind a separator.
-/
theorem intercalate_cons {α : Type} (x : α) (t : List α) (back : List (List α)) :
    [x].intercalate (t :: back) = t ++ back.flatMap (x :: ·) :=
  intercalate_append_cons x [] back t

/-- A list that is joined of parts is each part in front of a separator, and then the last one. -/
theorem intercalate_concat {α : Type} (x : α) (front : List (List α)) (t : List α) :
    [x].intercalate (front ++ [t]) = front.flatMap (· ++ [x]) ++ t := by
  rw [intercalate_append_cons, List.flatMap_nil, List.append_nil]

/-- The first ones of some parts, joined, are how all of them begin. -/
theorem intercalate_isPrefix {α : Type} (x : α) (front back : List (List α)) :
    [x].intercalate front <+: [x].intercalate (front ++ back) := by
  rcases List.eq_nil_or_concat front with rfl | ⟨front, last, rfl⟩
  · exact List.nil_prefix
  · rw [List.concat_eq_append, List.append_assoc, List.singleton_append, intercalate_concat,
      intercalate_append_cons, ← List.append_assoc]
    exact List.prefix_append _ _

/-- What is joined comes from the parts, or it stands between two of them. -/
theorem mem_intercalate {α : Type} {x y : α} {parts : List (List α)}
    (h : y ∈ [x].intercalate parts) : y = x ∨ ∃ part ∈ parts, y ∈ part := by
  cases parts with
  | nil => exact absurd h List.not_mem_nil
  | cons first parts =>
    simp only [intercalate_cons, List.mem_append, List.mem_flatMap, List.mem_cons] at h
    rcases h with h | ⟨part, hpart, rfl | h⟩
    · exact .inr ⟨first, List.mem_cons_self, h⟩
    · exact .inl rfl
    · exact .inr ⟨part, List.mem_cons_of_mem _ hpart, h⟩

/-! ### Machines -/

section

variable {σ α : Type} {step : σ → α → Option σ} {state next : σ}

/-- A machine goes on behind the first member, if it takes it. -/
theorem foldlM_cons_of_eq_some {x : α} (h : step state x = some next) (xs : List α) :
    (x :: xs).foldlM step state = xs.foldlM step next := by
  rw [List.foldlM_cons, h]
  rfl

/-- A machine goes on behind the part of a list that it has read. -/
theorem foldlM_append_of_eq_some {xs : List α} (h : xs.foldlM step state = some next)
    (ys : List α) : (xs ++ ys).foldlM step state = ys.foldlM step next := by
  rw [List.foldlM_append, h]
  rfl

/-- What holds at the start and is kept by each step holds of every state and the members that led
to it. -/
theorem of_foldlM_eq_some {P : σ → List α → Prop} (start : P state [])
    (keep : ∀ {s s' : σ} {xs : List α} {x : α}, P s xs → step s x = some s' → P s' (xs ++ [x]))
    {xs : List α} (h : xs.foldlM step state = some next) : P next xs := by
  induction xs using List.reverseRecOn generalizing next with
  | nil => exact Option.some.inj h ▸ start
  | append_singleton xs x ih =>
    rw [List.foldlM_append, Option.bind_eq_bind, Option.bind_eq_some_iff] at h
    obtain ⟨before, hread, hstep⟩ := h
    have hlast : step before x = some next := by simpa using hstep
    exact keep (ih hread) hlast

end

end AsmVariants.Proofs
