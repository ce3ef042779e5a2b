import AsmVariants.Proofs.CommandLine.Grammar
import AsmVariants.Proofs.Decimal
import AsmVariants.Proofs.Except
import AsmVariants.Proofs.Placeholder.Order

/-!
# `AsmVariants.Proofs.CommandLine.Taking`: the items that a draft takes

A value is `Usable` if it is what its option can be set to. This is said without the functions that
read values, and `admissible_iff_usable` says that these read the same values.

`take_eq_ok_iff` is about one item: when a draft takes it, and what the draft has then. From it,
`foldlM_take_eq_ok_iff` says which lists of items are taken, the `Takeable` ones. That the items are
about different subjects comes out of the induction: a subject that is set stays so, and no other
item about it is taken.

Items that ask for an expansion are refused in one way only (`usage_of_foldlM_take`). So it does not
matter which of them is the first that cannot be taken.
-/

set_option autoImplicit false

namespace AsmVariants.Proofs

open CommandLine (Item Refusal)
open Invocation (Draft limit? path?)

/-! ### Values that can be used

A limit is written in digits, with a plus sign in front or not, and is below the bound of its type.
A path must not be empty, and an order has one of the names. -/

/-- A limit is a number in decimal digits, maybe with a plus sign in front. -/
inductive IsLimit : Text → Nat → Prop
  | plain {digits : Text} (ne_nil : digits ≠ []) (digit : ∀ c ∈ digits, c.isDigit) :
      IsLimit digits (Nat.ofDigitChars 10 digits 0)
  | signed {digits : Text} (ne_nil : digits ≠ []) (digit : ∀ c ∈ digits, c.isDigit) :
      IsLimit ('+' :: digits) (Nat.ofDigitChars 10 digits 0)

/-- A path is not empty, an order is one of the two, and a limit has at most 64 bits. -/
def Usable : Item ExpandOption → Prop
  | .positional value | .option .config value => value ≠ []
  | .option .order value => value = "first-seen".toList ∨ value = "numeric".toList
  | .option .limit value => ∃ number < UInt64.size, IsLimit value number
  -- There is no value.
  | _ => True

/-- A limit is read as the number that it denotes. -/
theorem limit?_eq_some_iff {t : Text} {n : UInt64} : limit? t = some n ↔ IsLimit t n.toNat := by
  constructor
  · intro h
    rw [limit?, toUInt64?_eq_some_iff] at h
    split at h
    · next hplus =>
      obtain ⟨digits, rfl⟩ := List.head?_eq_some_iff.mp hplus
      rw [← h.2.2]
      exact .signed h.1 h.2.1
    · rw [← h.2.2]
      exact .plain h.1 h.2.1
  · generalize hn : n.toNat = number
    intro h
    cases h with
    | plain ne_nil digit =>
      -- No plus sign is cut off, because it would be a digit.
      have hplus : t.head? ≠ some '+' := by
        intro hhead
        exact absurd (digit _ (List.mem_of_head? hhead)) (by decide)
      rw [limit?, if_neg hplus]
      exact toUInt64?_eq_some_iff.mpr ⟨ne_nil, digit, hn.symm⟩
    | signed ne_nil digit => exact toUInt64?_eq_some_iff.mpr ⟨ne_nil, digit, hn.symm⟩

/-- A text can be used as a limit if it denotes a number of at most 64 bits. -/
theorem isSome_limit?_iff {t : Text} :
    (limit? t).isSome ↔ ∃ number < UInt64.size, IsLimit t number := by
  rw [Option.isSome_iff_exists]
  constructor
  · rintro ⟨n, h⟩
    exact ⟨n.toNat, n.toNat_lt_size, limit?_eq_some_iff.mp h⟩
  · rintro ⟨number, hlt, h⟩
    refine ⟨UInt64.ofNat number, limit?_eq_some_iff.mpr ?_⟩
    rwa [UInt64.toNat_ofNat_of_lt' hlt]

/-- A path is any text that is not empty, as it is written. -/
theorem path?_eq_some_iff {t : Text} {path : Path} (h : t ≠ []) :
    path? t = some path ↔ t = path.text := by
  cases path
  rw [path?, if_neg h]
  simp

/-- An order is named by one of two texts. -/
theorem isSome_orderOfName?_iff {t : Text} :
    (PlaceholderOrder.ofName? t).isSome ↔ t = "first-seen".toList ∨ t = "numeric".toList := by
  rw [Option.isSome_iff_exists]
  constructor
  · rintro ⟨_ | _, h⟩
    · exact .inl (orderOfName?_eq_some_iff.mp h).symm
    · exact .inr (orderOfName?_eq_some_iff.mp h).symm
  · rintro (rfl | rfl)
    · exact ⟨.firstSeen, PlaceholderOrder.ofName?_name .firstSeen⟩
    · exact ⟨.numeric, PlaceholderOrder.ofName?_name .numeric⟩

/-- The items that can be taken are those with a value that can be used. -/
theorem admissible_iff_usable {item : Item ExpandOption} (asks : Asks item) :
    admissible item ↔ Usable item := by
  cases asks with
  | template value | config value => cases value <;> simp [admissible, Usable, path?]
  | order value => exact isSome_orderOfName?_iff
  | limit value => exact isSome_limit?_iff
  | dryRun | verbose => simp [admissible, Usable]

/-! ### What a draft takes

Each item is taken by a step that looks at one field. If the field is set, the item is refused, and
no item empties a field. -/

/-- What is given now was not given before. What is not set yet gets a value, if there is one, and
all else is refused. -/
theorem eq_none_of_give {α : Type} {old new given : Option α}
    (h : Invocation.give old new = .ok given) : old = none := by
  cases old with
  | none => rfl
  | some _ => exact nomatch h

/-- A flag that is raised now was not raised before. -/
theorem eq_false_of_raise {old raised : Bool} (h : Invocation.raise old = .ok raised) :
    old = false := by
  cases old with
  | false => rfl
  | true => exact nomatch h

/-- A value that cannot be given is refused in one way only, whether it is the second one or cannot
be used. -/
theorem usage_of_give {α : Type} {old new : Option α} {refusal : Refusal}
    (h : Invocation.give old new = .error refusal) : refusal = .usage := by
  cases old <;> cases new <;> cases h <;> rfl

/-- A flag that cannot be raised is refused in one way only. -/
theorem usage_of_raise {old : Bool} {refusal : Refusal}
    (h : Invocation.raise old = .error refusal) : refusal = .usage := by
  cases old <;> cases h
  rfl

section

variable {draft next : Draft} {item : Item ExpandOption}

/-- What asks for an expansion is about something that a draft can have. -/
theorem settable_of_asks (h : Asks item) : Settable (subject item) := by
  cases h <;> simp [Settable, subject]

/-- An item that is taken asks for an expansion. Help and the version are refusals, and so are
options that are given in a way that they do not allow. -/
theorem asks_of_take (h : draft.take item = .ok next) : Asks item := by
  -- One case for each item that can be taken. The draft that takes it does not matter.
  cases item with
  | malformed => exact nomatch h
  | positional value => exact .template value
  | flag key =>
    cases key with
    | dryRun => exact .dryRun
    | verbose => exact .verbose
    | order | limit | config | help | version => exact nomatch h
  | option key value =>
    cases key with
    | order => exact .order value
    | limit => exact .limit value
    | config => exact .config value
    | dryRun | verbose | help | version => exact nomatch h

/-- Nothing can be set twice. -/
theorem unset_of_take (h : draft.take item = .ok next) : Unset draft (subject item) := by
  cases asks_of_take h with
  | template | order | limit | config =>
    obtain ⟨_, hgive, -⟩ := bind_eq_ok_iff.mp h
    exact eq_none_of_give hgive
  | dryRun | verbose =>
    obtain ⟨_, hraise, -⟩ := bind_eq_ok_iff.mp h
    exact eq_false_of_raise hraise

/-- The items that a draft takes, and what it has then. -/
theorem take_eq_ok_iff :
    draft.take item = .ok next ↔
      Asks item ∧ Unset draft (subject item) ∧ Usable item ∧ fill draft item = next := by
  constructor
  · intro h
    -- A draft that takes an item had nothing about its subject, so the item is taken by itself.
    have asks := asks_of_take h
    have unset := unset_of_take h
    rw [take_of_unset (settable_of_asks asks) unset] at h
    split at h
    · next hadmissible =>
      exact ⟨asks, unset, (admissible_iff_usable asks).mp hadmissible, Except.ok.inj h⟩
    · exact nomatch h
  · rintro ⟨asks, unset, usable, rfl⟩
    rw [take_of_unset (settable_of_asks asks) unset,
      if_pos ((admissible_iff_usable asks).mpr usable)]

/-- An item that asks for an expansion is refused in one way only. -/
theorem usage_of_take {refusal : Refusal} (asks : Asks item)
    (h : draft.take item = .error refusal) : refusal = .usage := by
  cases asks with
  | template | order | limit | config =>
    obtain hgive | ⟨_, -, hnone⟩ := bind_eq_error_iff.mp h
    · exact usage_of_give hgive
    · exact nomatch hnone
  | dryRun | verbose =>
    obtain hraise | ⟨_, -, hnone⟩ := bind_eq_error_iff.mp h
    · exact usage_of_raise hraise
    · exact nomatch hnone

/-- What an item is about is set with it. -/
theorem not_unset_fill (asks : Asks item) (usable : Usable item) :
    ¬Unset (fill draft item) (subject item) := by
  rw [← admissible_iff_usable asks] at usable
  cases asks with
  | template | order | limit | config =>
    intro hnone
    exact nomatch (Option.isSome_iff_ne_none.mp usable) hnone
  | dryRun | verbose => exact Bool.noConfusion

end

/-- The items ask for an expansion, with values that can be used, and they are about different
subjects, which are not set in the draft. -/
structure Takeable (draft : Draft) (items : List (Item ExpandOption)) : Prop where
  asks : ∀ item ∈ items, Asks item
  unset : ∀ item ∈ items, Unset draft (subject item)
  distinct : (items.map subject).Nodup
  usable : ∀ item ∈ items, Usable item

/-- The lists of items that a draft takes, and what it has then. -/
theorem foldlM_take_eq_ok_iff {draft final : Draft} {items : List (Item ExpandOption)} :
    items.foldlM Draft.take draft = .ok final ↔
      Takeable draft items ∧ items.foldl fill draft = final := by
  constructor
  · intro h
    induction items generalizing draft with
    | nil => exact ⟨⟨nofun, nofun, .nil, nofun⟩, Except.ok.inj h⟩
    | cons item items ih =>
      rw [List.foldlM_cons] at h
      obtain ⟨next, htake, hrest⟩ := bind_eq_ok_iff.mp h
      obtain ⟨asks, unset, usable, rfl⟩ := take_eq_ok_iff.mp htake
      obtain ⟨takeable, hfinal⟩ := ih hrest
      -- What the first item is about is set by now, so the others are about something else.
      have hne : ∀ other ∈ items, subject item ≠ subject other := by
        intro other hother hsame
        apply @not_unset_fill draft item asks usable
        rw [hsame]
        exact takeable.unset other hother
      refine ⟨⟨?_, ?_, ?_, ?_⟩, hfinal⟩
      · exact List.forall_mem_cons.mpr ⟨asks, takeable.asks⟩
      · refine List.forall_mem_cons.mpr ⟨unset, fun other hother => ?_⟩
        exact (unset_fill_iff (hne other hother)).mp (takeable.unset other hother)
      · rw [List.map_cons, List.nodup_cons]
        refine ⟨fun hmem => ?_, takeable.distinct⟩
        obtain ⟨other, hother, hsame⟩ := List.mem_map.mp hmem
        exact hne other hother hsame.symm
      · exact List.forall_mem_cons.mpr ⟨usable, takeable.usable⟩
  · rintro ⟨takeable, rfl⟩
    have hadmissible : items.all admissible :=
      List.all_eq_true.mpr fun item hitem =>
        (admissible_iff_usable (takeable.asks item hitem)).mpr (takeable.usable item hitem)
    rw [foldlM_take (fun item hitem => settable_of_asks (takeable.asks item hitem)) takeable.unset
      takeable.distinct, if_pos hadmissible]

/-- Items that ask for an expansion are refused in one way only, wherever among them the refusal is.
-/
theorem usage_of_foldlM_take {draft : Draft} {items : List (Item ExpandOption)} {refusal : Refusal}
    (asks : ∀ item ∈ items, Asks item) (h : items.foldlM Draft.take draft = .error refusal) :
    refusal = .usage := by
  induction items generalizing draft with
  | nil => exact nomatch h
  | cons item items ih =>
    rw [List.forall_mem_cons] at asks
    rw [List.foldlM_cons] at h
    obtain hfirst | ⟨next, -, hrest⟩ := bind_eq_error_iff.mp h
    · exact usage_of_take asks.1 hfirst
    · exact ih asks.2 hrest

end AsmVariants.Proofs
