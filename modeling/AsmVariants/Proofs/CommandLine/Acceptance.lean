import AsmVariants.Proofs.CommandLine.Taking

/-!
# `AsmVariants.Proofs.CommandLine.Acceptance`: the command lines that are accepted

A command line is accepted if it belongs to the grammar and its items are `Acceptable`: one of them
is the template, none is about the same as another, and their values are `Usable`. It then asks for
what the items say (`Says`), so their order is of no importance. The main statement is
`ofArguments_eq_ok_iff_grammatical`.

What a draft has in the end is read off the items, one subject after another (`foldl_fill_iff`). As
items about different subjects can be taken in any order, the item in question can as well be the
last. So it is enough to know what one item does to any draft, which `Sets` says.
-/

set_option autoImplicit false

namespace AsmVariants.Proofs

open CommandLine (Item Refusal)
open ExpandOption (options)
open Invocation (Draft)

/-! ### What a draft has in the end

For each of the six things that a draft can have there is one lemma about one item (`sets_template`
to `sets_verbose`), and `foldl_fill_iff` carries all six through the list. -/

/-- The draft has what the items say, and nothing else. Its limit is the number that is written in
an item, which can be written in several ways. -/
structure Says (items : List (Item ExpandOption)) (draft : Draft) : Prop where
  template : ∀ path, draft.template = some path ↔ .positional path.text ∈ items
  order : ∀ order, draft.order = some order ↔ .option .order order.name ∈ items
  limit : ∀ most, draft.limit = some most ↔
    ∃ value, .option .limit value ∈ items ∧ IsLimit value most.toNat
  dryRun : draft.dryRun ↔ .flag .dryRun ∈ items
  config : ∀ path, draft.config = some path ↔ .option .config path.text ∈ items
  verbose : draft.verbose ↔ .flag .verbose ∈ items

/-- There is one draft that has what the items say. Two drafts are compared field by field. -/
theorem Says.eq {items : List (Item ExpandOption)} {draft draft' : Draft} (h : Says items draft)
    (h' : Says items draft') : draft = draft' := by
  have htemplate : draft.template = draft'.template :=
    Option.ext fun path => (h.template path).trans (h'.template path).symm
  have horder : draft.order = draft'.order :=
    Option.ext fun order => (h.order order).trans (h'.order order).symm
  have hlimit : draft.limit = draft'.limit :=
    Option.ext fun most => (h.limit most).trans (h'.limit most).symm
  have hdryRun : draft.dryRun = draft'.dryRun :=
    Bool.eq_iff_iff.mpr (h.dryRun.trans h'.dryRun.symm)
  have hconfig : draft.config = draft'.config :=
    Option.ext fun path => (h.config path).trans (h'.config path).symm
  have hverbose : draft.verbose = draft'.verbose :=
    Bool.eq_iff_iff.mpr (h.verbose.trans h'.verbose.symm)
  cases draft
  cases draft'
  simp only [Draft.mk.injEq]
  exact ⟨htemplate, horder, hlimit, hdryRun, hconfig, hverbose⟩

/-- The draft is made to have `P` by the items `Q`, and only by these. They are about the
subject. -/
structure Sets (key : Option ExpandOption) (P : Draft → Prop) (Q : Item ExpandOption → Prop) :
    Prop where
  unset : ∀ draft, Unset draft key → ¬P draft
  taken : ∀ draft item, Asks item → Usable item → subject item = key →
    (P (fill draft item) ↔ Q item)
  about : ∀ item, Q item → subject item = key

/-- The template is set by a positional argument with its path. -/
theorem sets_template (path : Path) :
    Sets none (fun draft => draft.template = some path)
      (fun item => item = .positional path.text) where
  unset draft hunset h := Option.some_ne_none path (h.symm.trans hunset)
  taken draft item asks usable hsubject := by
    cases asks with
    | template value => exact (path?_eq_some_iff usable).trans (by simp)
    | _ => cases hsubject
  about item h := h ▸ rfl

/-- The order is set by its name, behind the option for the order. -/
theorem sets_order (order : PlaceholderOrder) :
    Sets (some .order) (fun draft => draft.order = some order)
      (fun item => item = .option .order order.name) where
  unset draft hunset h := Option.some_ne_none order (h.symm.trans hunset)
  taken draft item asks usable hsubject := by
    cases asks with
    | order value => exact orderOfName?_eq_some_iff.trans (by simp [eq_comm])
    | _ => cases hsubject
  about item h := h ▸ rfl

/-- The limit is set by any text that denotes it, behind the option for the limit. -/
theorem sets_limit (most : UInt64) :
    Sets (some .limit) (fun draft => draft.limit = some most)
      (fun item => ∃ value, item = .option .limit value ∧ IsLimit value most.toNat) where
  unset draft hunset h := Option.some_ne_none most (h.symm.trans hunset)
  taken draft item asks usable hsubject := by
    cases asks with
    | limit value => exact limit?_eq_some_iff.trans (by simp)
    | _ => cases hsubject
  about item h := by
    obtain ⟨value, rfl, -⟩ := h
    rfl

/-- A dry run is asked for by its flag. -/
theorem sets_dryRun :
    Sets (some .dryRun) (fun draft => draft.dryRun) (fun item => item = .flag .dryRun) where
  unset draft hunset h := Bool.noConfusion (h.symm.trans hunset)
  taken draft item asks usable hsubject := by
    cases asks with
    | dryRun => simp [fill]
    | _ => cases hsubject
  about item h := h ▸ rfl

/-- The configuration's file is set by its path, behind the option for the configuration. -/
theorem sets_config (path : Path) :
    Sets (some .config) (fun draft => draft.config = some path)
      (fun item => item = .option .config path.text) where
  unset draft hunset h := Option.some_ne_none path (h.symm.trans hunset)
  taken draft item asks usable hsubject := by
    cases asks with
    | config value => exact (path?_eq_some_iff usable).trans (by simp)
    | _ => cases hsubject
  about item h := h ▸ rfl

/-- Verbose events are asked for by their flag. -/
theorem sets_verbose :
    Sets (some .verbose) (fun draft => draft.verbose) (fun item => item = .flag .verbose) where
  unset draft hunset h := Bool.noConfusion (h.symm.trans hunset)
  taken draft item asks usable hsubject := by
    cases asks with
    | verbose => simp [fill]
    | _ => cases hsubject
  about item h := h ▸ rfl

/-- A subject that is set in the end is one that an item is about. -/
theorem exists_subject_eq {items : List (Item ExpandOption)} {draft : Draft}
    {key : Option ExpandOption} (unset : Unset draft key)
    (h : ¬Unset (items.foldl fill draft) key) : ∃ item ∈ items, subject item = key := by
  induction items generalizing draft with
  | nil => exact absurd unset h
  | cons item items ih =>
    by_cases hitem : subject item = key
    · exact ⟨item, List.mem_cons_self, hitem⟩
    · obtain ⟨other, hother, hsubject⟩ := ih ((unset_fill_iff hitem).mpr unset) h
      exact ⟨other, List.mem_cons_of_mem _ hother, hsubject⟩

section

variable {items : List (Item ExpandOption)} (takeable : Takeable {} items)

include takeable

/-- Any of the items can be the last that is taken. -/
theorem exists_foldl_eq_fill {item : Item ExpandOption} (h : item ∈ items) :
    ∃ draft, items.foldl fill {} = fill draft item := by
  obtain ⟨before, behind, rfl⟩ := List.append_of_mem h
  have hperm : (before ++ item :: behind).Perm (before ++ behind ++ [item]) :=
    List.perm_middle.trans (List.perm_append_singleton item (before ++ behind)).symm
  refine ⟨(before ++ behind).foldl fill {}, ?_⟩
  rw [foldl_fill_perm hperm takeable.distinct, List.foldl_append]
  rfl

/-- What a draft has about a subject in the end, it has from an item. -/
theorem foldl_fill_iff {key : Option ExpandOption} {P : Draft → Prop}
    {Q : Item ExpandOption → Prop} (sets : Sets key P Q) :
    P (items.foldl fill {}) ↔ ∃ item ∈ items, Q item := by
  have htaken : ∀ draft, ∀ item ∈ items, subject item = key → (P (fill draft item) ↔ Q item) :=
    fun draft item hitem =>
      sets.taken draft item (takeable.asks item hitem) (takeable.usable item hitem)
  constructor
  · intro h
    -- The subject was not set at the start, so it is an item that has set it.
    have hset : ¬Unset (items.foldl fill {}) key := fun hunset => sets.unset _ hunset h
    obtain ⟨item, hitem, hsubject⟩ := exists_subject_eq (unset_start key) hset
    obtain ⟨draft, hlast⟩ := exists_foldl_eq_fill takeable hitem
    rw [hlast] at h
    exact ⟨item, hitem, (htaken draft item hitem hsubject).mp h⟩
  · rintro ⟨item, hitem, h⟩
    obtain ⟨draft, hlast⟩ := exists_foldl_eq_fill takeable hitem
    rw [hlast]
    exact (htaken draft item hitem (sets.about item h)).mpr h

/-- What can be taken is what is asked for in the end. -/
theorem says_foldl_fill : Says items (items.foldl fill {}) where
  template path := (foldl_fill_iff takeable (sets_template path)).trans exists_eq_right
  order order := (foldl_fill_iff takeable (sets_order order)).trans exists_eq_right
  limit most := (foldl_fill_iff takeable (sets_limit most)).trans (by simp)
  dryRun := (foldl_fill_iff takeable sets_dryRun).trans exists_eq_right
  config path := (foldl_fill_iff takeable (sets_config path)).trans exists_eq_right
  verbose := (foldl_fill_iff takeable sets_verbose).trans exists_eq_right

end

/-! ### What items ask for

A draft that is complete is an invocation, and nothing else can go wrong with items that can all be
taken. So acceptance is a property of the items alone. -/

/-- The draft in which everything is set that an invocation has. -/
def draftOf (invocation : Invocation) : Draft :=
  ⟨some invocation.template, invocation.order, invocation.limit, invocation.dryRun,
    invocation.config, invocation.verbose⟩

/-- A draft is finished exactly if it has a template, and all else in it is handed on as it is. -/
theorem finish_eq_ok_iff {draft : Draft} {invocation : Invocation} :
    draft.finish = .ok invocation ↔ draft = draftOf invocation := by
  cases draft with
  | mk template order limit dryRun config verbose =>
    cases template with
    | none => simp [Draft.finish, draftOf]
    | some template =>
      cases invocation
      simp [Draft.finish, draftOf]

/-- A draft is refused in one way only. -/
theorem usage_of_finish {draft : Draft} {refusal : Refusal} (h : draft.finish = .error refusal) :
    refusal = .usage := by
  rw [Draft.finish] at h
  split at h <;> cases h
  rfl

/-- Items that can be taken all ask for an expansion. -/
theorem asks_of_ofItems {items : List (Item ExpandOption)} {invocation : Invocation}
    (h : Invocation.ofItems items = .ok invocation) : ∀ item ∈ items, Asks item := by
  obtain ⟨_, htaken, -⟩ := bind_eq_ok_iff.mp h
  exact (foldlM_take_eq_ok_iff.mp htaken).1.asks

/-- There is exactly one template, no option is given twice, and all values can be used. -/
structure Acceptable (items : List (Item ExpandOption)) : Prop where
  template : ∃ value, .positional value ∈ items
  distinct : (items.map subject).Nodup
  usable : ∀ item ∈ items, Usable item

section

variable {items : List (Item ExpandOption)} (asks : ∀ item ∈ items, Asks item)

include asks

/-- Items that are acceptable can be taken from the start, where nothing is set yet. -/
theorem Acceptable.takeable (h : Acceptable items) : Takeable {} items :=
  ⟨asks, fun _ _ => unset_start _, h.distinct, h.usable⟩

/-- Items that ask for an expansion are read as an invocation exactly if they are acceptable and the
invocation has what they say. -/
theorem ofItems_eq_ok_iff {invocation : Invocation} :
    Invocation.ofItems items = .ok invocation ↔
      Acceptable items ∧ Says items (draftOf invocation) := by
  rw [Invocation.ofItems, bind_eq_ok_iff]
  constructor
  · rintro ⟨draft, htaken, hfinish⟩
    obtain ⟨takeable, rfl⟩ := foldlM_take_eq_ok_iff.mp htaken
    have hheld := says_foldl_fill takeable
    rw [finish_eq_ok_iff.mp hfinish] at hheld
    have htemplate := (hheld.template invocation.template).mp rfl
    exact ⟨⟨⟨_, htemplate⟩, takeable.distinct, takeable.usable⟩, hheld⟩
  · rintro ⟨acceptable, hheld⟩
    -- The filled draft and the invocation have what the items say, so they have the same.
    have takeable := acceptable.takeable asks
    refine ⟨_, foldlM_take_eq_ok_iff.mpr ⟨takeable, rfl⟩, finish_eq_ok_iff.mpr ?_⟩
    exact (says_foldl_fill takeable).eq hheld

/-- Items that are acceptable say all that an invocation has. -/
theorem Acceptable.exists_draftOf (h : Acceptable items) :
    ∃ invocation, Says items (draftOf invocation) := by
  have hheld := says_foldl_fill (h.takeable asks)
  -- As the template is set, the draft is that of an invocation.
  obtain ⟨value, hvalue⟩ := h.template
  have htemplate := (hheld.template ⟨value⟩).mpr hvalue
  generalize items.foldl fill {} = draft at hheld htemplate
  cases draft with
  | mk template order limit dryRun config verbose =>
    obtain rfl : template = some ⟨value⟩ := htemplate
    exact ⟨⟨⟨value⟩, order, limit, dryRun, config, verbose⟩, hheld⟩

/-- Items that ask for an expansion are refused in one way only. -/
theorem ofItems_eq_usage (h : ∀ invocation, Invocation.ofItems items ≠ .ok invocation) :
    Invocation.ofItems items = .error .usage := by
  cases hread : Invocation.ofItems items with
  | ok invocation => exact absurd hread (h invocation)
  | error refusal =>
    obtain htaken | ⟨draft, -, hfinish⟩ := bind_eq_error_iff.mp hread
    · rw [usage_of_foldlM_take asks htaken]
    · rw [usage_of_finish hfinish]

/-- The order of the items is of no importance, also when they are refused. -/
theorem ofItems_perm {others : List (Item ExpandOption)} (perm : items.Perm others) :
    Invocation.ofItems others = Invocation.ofItems items := by
  have hothers : ∀ item ∈ others, Asks item := fun item hitem => asks item (perm.mem_iff.mpr hitem)
  by_cases distinct : (items.map subject).Nodup
  · -- No two items have one subject, so either list is taken item by item and comes to the same
    -- draft.
    have hsettable : ∀ item ∈ items, Settable (subject item) :=
      fun item hitem => settable_of_asks (asks item hitem)
    exact (ofItems_of_perm perm hsettable distinct).symm
  · -- Neither list can be taken, and there is one way to refuse it.
    have hrefused : ∀ invocation, Invocation.ofItems items ≠ .ok invocation :=
      fun invocation h => distinct ((ofItems_eq_ok_iff asks).mp h).1.distinct
    have hrefused' : ∀ invocation, Invocation.ofItems others ≠ .ok invocation :=
      fun invocation h => distinct
        ((perm.map subject).nodup_iff.mpr ((ofItems_eq_ok_iff hothers).mp h).1.distinct)
    rw [ofItems_eq_usage asks hrefused, ofItems_eq_usage hothers hrefused']

end

/-! ### Command lines -/

/-- A command line is accepted exactly if it belongs to the grammar with items that are acceptable,
and it asks for what they say. Whatever is made of these items by writing them in another order or
in another way, asks for the same. -/
theorem ofArguments_eq_ok_iff_grammatical (arguments : List Text) :
    (∀ invocation, Invocation.ofArguments arguments = .ok invocation ↔
      ∃ items, Grammatical arguments items ∧ Acceptable items ∧
        Says items (draftOf invocation)) ∧
    ((∃ invocation, Invocation.ofArguments arguments = .ok invocation) ↔
      ∃ items, Grammatical arguments items ∧ Acceptable items) ∧
    ∀ items arguments' items', Grammatical arguments items → Grammatical arguments' items' →
      items.Perm items' → Invocation.ofArguments arguments' = Invocation.ofArguments arguments := by
  have hitems {arguments items} (h : Grammatical arguments items) :
      Invocation.ofArguments arguments = Invocation.ofItems items := by
    rw [Invocation.ofArguments, items_of_written h.written]
  have hok (invocation : Invocation) : Invocation.ofArguments arguments = .ok invocation ↔
      ∃ items, Grammatical arguments items ∧ Acceptable items ∧
        Says items (draftOf invocation) := by
    constructor
    · intro h
      -- All items were taken, so all that was read asks for an expansion.
      have grammatical := grammatical_items_iff.mpr (asks_of_ofItems h)
      exact ⟨_, grammatical, (ofItems_eq_ok_iff grammatical.asks).mp h⟩
    · rintro ⟨items, grammatical, h⟩
      rw [hitems grammatical]
      exact (ofItems_eq_ok_iff grammatical.asks).mpr h
  refine ⟨hok, ⟨?_, ?_⟩, ?_⟩
  · rintro ⟨invocation, h⟩
    obtain ⟨items, grammatical, acceptable, -⟩ := (hok invocation).mp h
    exact ⟨items, grammatical, acceptable⟩
  · rintro ⟨items, grammatical, acceptable⟩
    obtain ⟨invocation, hheld⟩ := acceptable.exists_draftOf grammatical.asks
    exact ⟨invocation, (hok invocation).mpr ⟨items, grammatical, acceptable, hheld⟩⟩
  · intro items arguments' items' grammatical grammatical' perm
    rw [hitems grammatical, hitems grammatical', ofItems_perm grammatical.asks perm]

/-- The two command lines have the same items in another order, written in other ways. The template
begins with a hyphen. -/
theorem ofArguments_eq_ok_iff_grammatical_rewritten :
    let arguments := ["-vcrun.json", "--max-variants", "+8", "--", "-x.zasm"].map String.toList
    let arguments' :=
      ["--max-variants=+8", "-c", "run.json", "--verbose", "--", "-x.zasm"].map String.toList
    let invocation : Invocation :=
      ⟨⟨"-x.zasm".toList⟩, none, some 8, false, some ⟨"run.json".toList⟩, true⟩
    Invocation.ofArguments arguments = .ok invocation ∧
      Invocation.ofArguments arguments' = .ok invocation := by
  intro arguments arguments' invocation
  let limit : Item ExpandOption := .option .limit "+8".toList
  let config : Item ExpandOption := .option .config "run.json".toList
  let template : Item ExpandOption := .positional "-x.zasm".toList
  let items := [.flag .verbose, config, limit, template]
  let items' := [limit, config, .flag .verbose, template]
  have asks : ∀ item ∈ items, Asks item := by
    simp only [items, List.forall_mem_cons]
    exact ⟨.verbose, .config _, .limit _, .template _, nofun⟩
  have perm : items.Perm items' := by decide +kernel
  have hread : options.items arguments = items := by decide +kernel
  have hread' : options.items arguments' = items' := by decide +kernel
  have grammatical : Grammatical arguments items := by
    rw [← hread] at asks ⊢
    exact grammatical_items_iff.mpr asks
  have grammatical' : Grammatical arguments' items' := by
    have asks' : ∀ item ∈ items', Asks item := fun item hitem => asks item (perm.mem_iff.mpr hitem)
    rw [← hread'] at asks' ⊢
    exact grammatical_items_iff.mpr asks'
  have acceptable : Acceptable items := by
    refine ⟨⟨_, show template ∈ items by simp [items]⟩, by decide, ?_⟩
    simp only [items, List.forall_mem_cons]
    have hlimit : IsLimit "+8".toList 8 :=
      @IsLimit.signed ['8'] (by decide) (List.forall_mem_singleton.mpr rfl)
    exact ⟨trivial, by simp [Usable, config], ⟨8, by decide, hlimit⟩, by simp [Usable, template],
      nofun⟩
  have hheld : Says items (draftOf invocation) := by
    have hdraft : draftOf invocation = items.foldl fill {} := by decide +kernel
    rw [hdraft]
    exact says_foldl_fill (acceptable.takeable asks)
  obtain ⟨hok, -, hperm⟩ := ofArguments_eq_ok_iff_grammatical arguments
  have h := (hok invocation).mpr ⟨items, grammatical, acceptable, hheld⟩
  exact ⟨h, (hperm items arguments' items' grammatical grammatical' perm).trans h⟩

end AsmVariants.Proofs
