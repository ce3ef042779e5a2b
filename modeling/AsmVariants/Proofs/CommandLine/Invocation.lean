import AsmVariants.Proofs.CommandLine.Items
import Mathlib.Data.List.Nodup

/-!
# `AsmVariants.Proofs.CommandLine.Invocation`: what the items of a command line ask for

Each item is about an option or about the template, its `subject`. As long as a draft has nothing
about the subject, it takes the item exactly if the item is `admissible`, whatever else it has, and
`fill` is the draft with the item (`take_of_unset`). Along a list of items about different subjects
no item stands in the way of another (`foldlM_take`), so their order is of no importance
(`ofItems_of_perm`).

A command line `Spells` an invocation if it is written with one item for each thing that the
invocation asks for, in any order. It is read as this invocation, unless a path is empty
(`ofArguments_of_spells`), and every invocation can be spelled (`exists_spells`).
-/

set_option autoImplicit false

namespace AsmVariants.Proofs

open CommandLine (Item)
open Invocation (Draft limit? path?)

/-! ### Items and drafts

The subject of an item is the one field that it sets. What keeps items apart is that a field that is
set refuses any other item about it, and that no item looks at another field. -/

/-- The option that an item is about, or none for the template. -/
def subject : Item ExpandOption → Option ExpandOption
  | .flag key | .option key _ => some key
  | .positional _ | .malformed => none

/-- Whether an item can be taken at all. -/
def admissible : Item ExpandOption → Bool
  | .positional value | .option .config value => (path? value).isSome
  | .option .order value => (PlaceholderOrder.ofName? value).isSome
  | .option .limit value => (limit? value).isSome
  | .flag .dryRun | .flag .verbose => true
  | _ => false

/-- Whether a draft has nothing yet about a subject. -/
def Unset (draft : Draft) : Option ExpandOption → Prop
  | none => draft.template = none
  | some .order => draft.order = none
  | some .limit => draft.limit = none
  | some .dryRun => draft.dryRun = false
  | some .config => draft.config = none
  | some .verbose => draft.verbose = false
  | some .help | some .version => True

/-- A draft with an item. -/
def fill (draft : Draft) : Item ExpandOption → Draft
  | .positional value => { draft with template := path? value }
  | .option .order value => { draft with order := PlaceholderOrder.ofName? value }
  | .option .limit value => { draft with limit := limit? value }
  | .option .config value => { draft with config := path? value }
  | .flag .dryRun => { draft with dryRun := true }
  | .flag .verbose => { draft with verbose := true }
  | _ => draft

/-- The subjects about which a draft can have something. -/
def Settable (key : Option ExpandOption) : Prop := key ≠ some .help ∧ key ≠ some .version

/-- Where nothing was given yet, a value is taken if it can be used. -/
theorem give_none {α : Type} (new : Option α) :
    Invocation.give none new = if new.isSome then .ok new else .error .usage := by
  cases new <;> rfl

/-- An item about something that is not set yet is taken or refused by itself. -/
theorem take_of_unset {draft : Draft} {item : Item ExpandOption}
    (settable : Settable (subject item)) (unset : Unset draft (subject item)) :
    draft.take item = if admissible item then .ok (fill draft item) else .error .usage := by
  cases item with
  | malformed => rfl
  | positional value =>
    have hnone : draft.template = none := unset
    rw [Draft.take, hnone, give_none, admissible, fill]
    split <;> rfl
  | flag key =>
    rw [Draft.take]
    cases key with
    | dryRun | verbose =>
      have hfalse := unset
      rw [subject, Unset] at hfalse
      rw [Draft.takeFlag, hfalse]
      rfl
    | order | limit | config => rfl
    | help => exact absurd rfl settable.1
    | version => exact absurd rfl settable.2
  | option key value =>
    rw [Draft.take]
    cases key with
    | order | limit | config =>
      -- What is not set yet is given unless its value cannot be read.
      have hnone := unset
      rw [subject, Unset] at hnone
      rw [Draft.takeOption, hnone, give_none, admissible, fill]
      split <;> rfl
    | dryRun | verbose => rfl
    | help => exact absurd rfl settable.1
    | version => exact absurd rfl settable.2

/-- An item says nothing about any other subject. -/
theorem unset_fill_iff {draft : Draft} {item : Item ExpandOption} {key : Option ExpandOption}
    (hne : subject item ≠ key) : Unset (fill draft item) key ↔ Unset draft key := by
  rcases key with _ | key
  · cases item with
    | positional | malformed => exact absurd rfl hne
    | flag other => cases other <;> exact Iff.rfl
    | option other value => cases other <;> exact Iff.rfl
  · cases item with
    | positional | malformed => cases key <;> exact Iff.rfl
    | flag other => cases key <;> cases other <;> first | exact Iff.rfl | exact absurd rfl hne
    | option other value =>
      cases key <;> cases other <;> first | exact Iff.rfl | exact absurd rfl hne

/-- Items about different subjects are taken if each of them can be. -/
theorem foldlM_take {draft : Draft} {items : List (Item ExpandOption)}
    (settable : ∀ item ∈ items, Settable (subject item))
    (unset : ∀ item ∈ items, Unset draft (subject item)) (distinct : (items.map subject).Nodup) :
    items.foldlM Draft.take draft =
      if items.all admissible then .ok (items.foldl fill draft) else .error .usage := by
  induction items generalizing draft with
  | nil => rfl
  | cons item items ih =>
    rw [List.forall_mem_cons] at settable unset
    rw [List.map_cons, List.nodup_cons] at distinct
    -- The items behind the first one are about other subjects, which are as free as before.
    have hunset : ∀ other ∈ items, Unset (fill draft item) (subject other) := by
      intro other hother
      refine (unset_fill_iff fun hsame => distinct.1 ?_).mpr (unset.2 other hother)
      exact hsame ▸ List.mem_map_of_mem hother
    rw [List.foldlM_cons, take_of_unset settable.1 unset.1, List.all_cons, List.foldl_cons]
    cases admissible item with
    | false => rfl
    | true => exact ih settable.2 hunset distinct.2

/-- In the draft at the start nothing is set. -/
theorem unset_start (key : Option ExpandOption) : Unset {} key := by
  rcases key with _ | key
  · rfl
  · cases key <;> trivial

/-- Items about different subjects are read as an invocation if each of them can be taken. Their
order does not occur in this condition, nor does it matter to the filled draft. -/
theorem ofItems_eq {items : List (Item ExpandOption)}
    (settable : ∀ item ∈ items, Settable (subject item)) (distinct : (items.map subject).Nodup) :
    Invocation.ofItems items =
      if items.all admissible then (items.foldl fill {}).finish else .error .usage := by
  rw [Invocation.ofItems, foldlM_take settable (fun _ _ => unset_start _) distinct]
  split <;> rfl

/-- Two items about different subjects can be taken in either order. -/
theorem fill_fill_comm (draft : Draft) {item other : Item ExpandOption}
    (h : subject item ≠ subject other) :
    fill (fill draft item) other = fill (fill draft other) item := by
  -- Two items with one subject are left out by `h`, and the others set different fields.
  cases item with
  | malformed => rfl
  | positional value =>
    cases other with
    | malformed => rfl
    | positional value' => exact absurd rfl h
    | flag key => cases key <;> rfl
    | option key value' => cases key <;> rfl
  | flag key =>
    cases other with
    | malformed => rfl
    | positional value' => cases key <;> rfl
    | flag key' => cases key <;> cases key' <;> rfl
    | option key' value' => cases key <;> cases key' <;> rfl
  | option key value =>
    cases other with
    | malformed => rfl
    | positional value' => cases key <;> rfl
    | flag key' => cases key <;> cases key' <;> rfl
    | option key' value' => cases key <;> cases key' <;> first | rfl | exact absurd rfl h

/-- Items about different subjects fill a draft in the same way in any order. -/
theorem foldl_fill_perm {items others : List (Item ExpandOption)} (perm : items.Perm others)
    (distinct : (items.map subject).Nodup) (draft : Draft) :
    items.foldl fill draft = others.foldl fill draft := by
  apply perm.foldl_eq'
  intro item hitem other hother draft
  by_cases hsame : subject item = subject other
  · rw [List.inj_on_of_nodup_map distinct hitem hother hsame]
  · exact fill_fill_comm draft hsame

/-- Items about different subjects ask for the same in any order. -/
theorem ofItems_of_perm {items others : List (Item ExpandOption)} (perm : items.Perm others)
    (settable : ∀ item ∈ items, Settable (subject item)) (distinct : (items.map subject).Nodup) :
    Invocation.ofItems items = Invocation.ofItems others := by
  have hsettable : ∀ item ∈ others, Settable (subject item) :=
    fun item hitem => settable item (perm.mem_iff.mpr hitem)
  rw [ofItems_eq settable distinct, ofItems_eq hsettable ((perm.map subject).nodup_iff.mp distinct),
    perm.all_eq, foldl_fill_perm perm distinct]

/-! ### Command lines that spell an invocation

An invocation has one item for its template and one for each option that is given. The limit may be
written in any way that is read as the limit, so its text is a parameter. -/

/-- The item with which an invocation says something about a subject, if it does. Its limit is
written as the given text. -/
def itemAbout (invocation : Invocation) (limitText : Text) :
    Option ExpandOption → Option (Item ExpandOption)
  | none => some (.positional invocation.template.text)
  | some .order => invocation.order.map fun order => .option .order order.name
  | some .limit => invocation.limit.map fun _ => .option .limit limitText
  | some .dryRun => if invocation.dryRun then some (.flag .dryRun) else none
  | some .config => invocation.config.map fun path => .option .config path.text
  | some .verbose => if invocation.verbose then some (.flag .verbose) else none
  | some .help | some .version => none

/-- The items of an invocation. -/
def itemsOf (invocation : Invocation) (limitText : Text) : List (Item ExpandOption) :=
  (none :: ExpandOption.all.map some).filterMap (itemAbout invocation limitText)

/-- The command line asks for the invocation, item by item, in any order. The limit may be any text
that is read as the number. -/
def Spells (arguments : List Text) (invocation : Invocation) : Prop :=
  ∃ limitText items, (∀ most ∈ invocation.limit, limit? limitText = some most) ∧
    items.Perm (itemsOf invocation limitText) ∧ Written arguments items

section

variable {invocation : Invocation} {limitText : Text}

/-- What an invocation says about an option is an item of this option. -/
theorem wellUsed_of_itemAbout {key : ExpandOption} {item : Item ExpandOption}
    (h : itemAbout invocation limitText (some key) = some item) :
    WellUsed key item ∧ Settable (some key) := by
  cases key with
  | order | limit | config =>
    obtain ⟨_, -, rfl⟩ := Option.map_eq_some_iff.mp h
    exact ⟨.option _ rfl, by simp [Settable]⟩
  | dryRun | verbose =>
    rw [itemAbout] at h
    split at h
    · obtain rfl := Option.some.inj h
      exact ⟨.flag rfl, by simp [Settable]⟩
    · exact nomatch h
  | help | version => exact nomatch h

/-- What an invocation says about a subject is about this subject. -/
theorem subject_of_itemAbout {key : Option ExpandOption} {item : Item ExpandOption}
    (h : itemAbout invocation limitText key = some item) :
    subject item = key ∧ Settable key := by
  rcases key with _ | key
  · obtain rfl := Option.some.inj h
    exact ⟨rfl, by simp [Settable]⟩
  · obtain ⟨hitem, hsettable⟩ := wellUsed_of_itemAbout h
    cases hitem <;> exact ⟨rfl, hsettable⟩

/-- The items that spell an invocation ask neither for help nor for the version. -/
theorem settable_of_mem_itemsOf {item : Item ExpandOption}
    (h : item ∈ itemsOf invocation limitText) : Settable (subject item) := by
  obtain ⟨key, -, hitem⟩ := List.mem_filterMap.mp h
  obtain ⟨hsubject, hsettable⟩ := subject_of_itemAbout hitem
  exact hsubject ▸ hsettable

variable (invocation limitText) in
/-- Each option is spelled at most once. -/
theorem nodup_subject_itemsOf : ((itemsOf invocation limitText).map subject).Nodup := by
  have hkeys : (none :: ExpandOption.all.map some).Nodup := by decide
  rw [List.Nodup, List.pairwise_map]
  refine List.Pairwise.filterMap (itemAbout invocation limitText) ?_ hkeys
  intro key key' hne item hitem item' hitem'
  rw [(subject_of_itemAbout hitem).1, (subject_of_itemAbout hitem').1]
  exact hne

variable (hlimit : ∀ most ∈ invocation.limit, limit? limitText = some most)

include hlimit

/-- The items can be taken, unless a path is empty. -/
theorem all_admissible_itemsOf :
    (itemsOf invocation limitText).all admissible ↔
      invocation.template.text ≠ [] ∧ ∀ path ∈ invocation.config, path.text ≠ [] := by
  have hpath : ∀ t : Text, (path? t).isSome ↔ t ≠ [] := by
    intro t
    cases t <;> simp [path?]
  rw [List.all_eq_true]
  constructor
  · intro h
    constructor
    · have hitem : .positional invocation.template.text ∈ itemsOf invocation limitText :=
        List.mem_filterMap.mpr ⟨none, List.mem_cons_self, rfl⟩
      exact (hpath _).mp (h _ hitem)
    · intro path hconfig
      have hitem : .option .config path.text ∈ itemsOf invocation limitText :=
        List.mem_filterMap.mpr ⟨some .config, by decide, congrArg (Option.map _) hconfig⟩
      exact (hpath _).mp (h _ hitem)
  · -- Only a path can be refused; every other value is one that is read.
    rintro ⟨htemplate, hconfig⟩ item hitem
    obtain ⟨key, -, hitem⟩ := List.mem_filterMap.mp hitem
    rcases key with _ | key
    · obtain rfl := Option.some.inj hitem
      exact (hpath _).mpr htemplate
    · cases key with
      | order =>
        obtain ⟨order, -, rfl⟩ := Option.map_eq_some_iff.mp hitem
        rw [admissible, PlaceholderOrder.ofName?_name, Option.isSome_some]
      | limit =>
        obtain ⟨most, hmost, rfl⟩ := Option.map_eq_some_iff.mp hitem
        rw [admissible, hlimit most hmost, Option.isSome_some]
      | config =>
        obtain ⟨path, hpathOf, rfl⟩ := Option.map_eq_some_iff.mp hitem
        exact (hpath _).mpr (hconfig path hpathOf)
      | dryRun | verbose =>
        rw [itemAbout] at hitem
        split at hitem
        · obtain rfl := Option.some.inj hitem
          rfl
        · exact nomatch hitem
      | help | version => exact nomatch hitem

/-- With the items, the draft has what the invocation has. -/
theorem foldl_fill_itemsOf :
    (itemsOf invocation limitText).foldl fill {} =
      ⟨path? invocation.template.text, invocation.order, invocation.limit, invocation.dryRun,
        invocation.config.bind fun path => path? path.text, invocation.verbose⟩ := by
  have horder : invocation.order.bind (fun order => PlaceholderOrder.ofName? order.name) =
      invocation.order := by
    simp [PlaceholderOrder.ofName?_name]
  have hmost : invocation.limit.bind (fun _ => limit? limitText) = invocation.limit := by
    cases h : invocation.limit with
    | none => rfl
    | some most => exact hlimit most h
  rw [← horder, ← hmost]
  -- Each of the options is given or not.
  rcases invocation with ⟨template, _ | order, _ | most, _ | _, _ | path, _ | _⟩ <;> rfl

end

/-- A number can be written as a limit by its digits. -/
theorem limit?_ofNat (most : UInt64) : limit? (Text.ofNat most.toNat) = some most := by
  have hplus : (Text.ofNat most.toNat).head? ≠ some '+' := by
    intro hhead
    have hdigit : '+'.isDigit := Text.isDigit_of_mem_ofNat (List.mem_of_head? hhead)
    exact absurd hdigit (by decide)
  rw [limit?, if_neg hplus, Text.toUInt64?_ofNat]

/-- Whatever is asked for, some command line spells it. -/
theorem exists_spells (invocation : Invocation) : ∃ arguments, Spells arguments invocation := by
  -- The options come first, each under its long name. The template comes last behind two hyphens,
  -- since it may begin with one.
  let limitText := invocation.limit.elim [] fun most => Text.ofNat most.toNat
  let named := (ExpandOption.all.map some).filterMap (itemAbout invocation limitText)
  have hlimit : ∀ most ∈ invocation.limit, limit? limitText = some most := by
    intro most hmost
    have htext : limitText = Text.ofNat most.toNat := by simp [limitText, Option.mem_def.mp hmost]
    rw [htext, limit?_ofNat]
  have hused : ∀ item ∈ named, ∃ key, WellUsed key item := by
    intro item hitem
    obtain ⟨_, hkey, hitem⟩ := List.mem_filterMap.mp hitem
    obtain ⟨key, -, rfl⟩ := List.mem_map.mp hkey
    exact ⟨key, (wellUsed_of_itemAbout hitem).1⟩
  obtain ⟨arguments, written⟩ :=
    exists_written_append hused (.verbatim [invocation.template.text])
  exact ⟨arguments, limitText, _, hlimit, List.perm_append_singleton _ _, written⟩

/-- A command line that spells an invocation is read as this invocation, unless a path is empty. -/
theorem ofArguments_of_spells {arguments : List Text} {invocation : Invocation}
    (h : Spells arguments invocation) :
    Invocation.ofArguments arguments =
      if invocation.template.text ≠ [] ∧ ∀ path ∈ invocation.config, path.text ≠ [] then
        .ok invocation
      else .error .usage := by
  obtain ⟨limitText, items, hlimit, perm, written⟩ := h
  have hsettable : ∀ item ∈ itemsOf invocation limitText, Settable (subject item) :=
    fun _ => settable_of_mem_itemsOf
  have hdistinct := nodup_subject_itemsOf invocation limitText
  rw [Invocation.ofArguments, items_of_written written,
    ← ofItems_of_perm perm.symm hsettable hdistinct, ofItems_eq hsettable hdistinct,
    foldl_fill_itemsOf hlimit]
  simp only [all_admissible_itemsOf hlimit]
  split
  · next hpaths =>
    -- A path that is not empty is read as it is written.
    have hconfig : (invocation.config.bind fun path => path? path.text) = invocation.config := by
      cases h : invocation.config with
      | none => rfl
      | some path => exact if_neg (hpaths.2 path h)
    rw [hconfig, path?, if_neg hpaths.1]
    rfl
  · rfl

end AsmVariants.Proofs
