import AsmVariants.CommandLine.Invocation
import Mathlib.Data.List.Forall2

/-!
# `AsmVariants.Proofs.CommandLine.Items`: how a command line is written

`Options.items` reads a command line. `Written` says how a command line looks that holds some items,
without reading it, and `items_of_written` says that it is read so. There is no other way to write
one that can be read (`written_items`).

`Holds` is about one argument. An argument holds items, and it may leave the value of an option to
the next argument, as a `Reading` has it. There is a case for each way to write an option: by its
long name or behind other short names (`Short`), and with its value in the same argument or not.

* `argument_of_holds` and `holds_argument`: an argument is read as what it holds, and it holds what
  is read of it unless that is malformed. Short names are the hard case. They are read one by one
  until a name takes the rest of the argument as its value, so `holds_cluster` carries the flags
  that were read before.
* `exists_written_append`: options can be written in front of any command line.

Whether the items make sense together is not looked at here. An option that is given twice is
written like any other.
-/

set_option autoImplicit false

namespace AsmVariants.Proofs

open CommandLine (Item Reading dropEquals isPlain)
open ExpandOption (options)

/-! ### One argument

An argument that begins with two hyphens is a long name, one that begins with a single hyphen is a
cluster of short names, and any other is a positional argument. A hyphen alone is positional, too.
-/

/-- The letters are the short names of the flags, one after another. -/
abbrev Short (letters : Text) (flags : List ExpandOption) : Prop :=
  List.Forall₂ (fun c key => key.shortName? = some c ∧ key.takesValue = false) letters flags

/-- What an argument holds by itself, and the option whose value it leaves to the next one. -/
inductive Holds : Text → Reading ExpandOption → Prop
  | positional {t : Text} (plain : isPlain t) : Holds t ([.positional t], none)
  | long {key : ExpandOption} (bare : key.takesValue = false) :
      Holds ('-' :: '-' :: key.longName) ([.flag key], none)
  | longPending {key : ExpandOption} (valued : key.takesValue) :
      Holds ('-' :: '-' :: key.longName) ([], some key)
  | longValue {key : ExpandOption} (value : Text) (valued : key.takesValue) :
      Holds ('-' :: '-' :: (key.longName ++ '=' :: value)) ([.option key value], none)
  | short {c : Char} {letters : Text} {flags : List ExpandOption}
      (short : Short (c :: letters) flags) :
      Holds ('-' :: c :: letters) (flags.map .flag, none)
  | shortPending {c : Char} {letters : Text} {flags : List ExpandOption} {key : ExpandOption}
      (short : Short letters flags) (named : key.shortName? = some c) (valued : key.takesValue) :
      Holds ('-' :: (letters ++ [c])) (flags.map .flag, some key)
  | shortValue {c : Char} {letters value : Text} {flags : List ExpandOption} {key : ExpandOption}
      (short : Short letters flags) (named : key.shortName? = some c) (valued : key.takesValue)
      (value_ne_nil : value ≠ []) :
      Holds ('-' :: (letters ++ c :: value)) (flags.map .flag ++ [.option key (dropEquals value)],
        none)

/-- Each option is found under its long name. -/
theorem long?_longName (key : ExpandOption) : options.long? key.longName = some key := by
  cases key <;> decide

/-- Each option is found under its short name. -/
theorem short?_of_shortName? {key : ExpandOption} {c : Char} (h : key.shortName? = some c) :
    options.short? c = some key := by
  cases key <;> cases h <;> decide

/-- No option has a hyphen for its short name, so two hyphens are never a cluster of letters. -/
theorem ne_hyphen_of_shortName? {key : ExpandOption} {c : Char} (h : key.shortName? = some c) :
    c ≠ '-' := by
  cases key <;> cases h <;> decide

/-- A long name is read up to an equals sign. -/
theorem longName_append (key : ExpandOption) (rest : Text)
    (h : rest = [] ∨ rest.head? = some '=') :
    options.longName (key.longName ++ rest) =
      match rest with
      | [] => if key.takesValue then ([], some key) else ([.flag key], none)
      | _ :: value =>
        if key.takesValue then ([.option key value], none) else ([.malformed], none) := by
  -- No long name has an equals sign, so the first one is where the value begins.
  have hall : key.longName.all (· != '=') := by cases key <;> decide
  have hname : ∀ c ∈ key.longName, (c != '=') = true := List.all_eq_true.mp hall
  have hstop : rest.takeWhile (· != '=') = [] ∧ rest.dropWhile (· != '=') = rest := by
    rcases h with rfl | h
    · exact ⟨rfl, rfl⟩
    · obtain ⟨value, rfl⟩ := List.head?_eq_some_iff.mp h
      exact ⟨rfl, rfl⟩
  have htake : (key.longName ++ rest).takeWhile (· != '=') = key.longName := by
    rw [List.takeWhile_append_of_pos hname, hstop.1, List.append_nil]
  have hdrop : (key.longName ++ rest).dropWhile (· != '=') = rest := by
    rw [List.dropWhile_append_of_pos hname, hstop.2]
  unfold CommandLine.Options.longName
  rw [htake, hdrop, long?_longName]
  cases rest <;> rfl

/-- The short names of flags are read one by one. -/
theorem cluster_append {letters : Text} {flags : List ExpandOption} (h : Short letters flags)
    (rest : Text) :
    options.cluster (letters ++ rest) =
      (flags.map .flag ++ (options.cluster rest).1, (options.cluster rest).2) := by
  induction h with
  | nil => rfl
  | @cons c key letters flags hkey _ ih =>
    have hbare : options.takesValue key = false := hkey.2
    rw [List.cons_append, CommandLine.Options.cluster, short?_of_shortName? hkey.1]
    simp only [hbare, Bool.false_eq_true, if_false, ih]
    rfl

/-- A short name that takes a value takes the rest of the argument, or else the next one. -/
theorem cluster_option {key : ExpandOption} {c : Char} (value : Text)
    (named : key.shortName? = some c) (valued : key.takesValue) :
    options.cluster (c :: value) =
      if value = [] then ([], some key) else ([.option key (dropEquals value)], none) := by
  have htakes : options.takesValue key = true := valued
  rw [CommandLine.Options.cluster, short?_of_shortName? named]
  simp only [htakes, if_true]

/-- Two hyphens introduce a long name. -/
theorem argument_long (name : Text) :
    options.argument ('-' :: '-' :: name) = options.longName name := rfl

/-- Behind a single hyphen are short names. -/
theorem argument_short {c : Char} (rest : Text) (h : c ≠ '-') :
    options.argument ('-' :: c :: rest) = options.cluster (c :: rest) := by
  have hplain : isPlain ('-' :: c :: rest) = false := by simp [isPlain]
  unfold CommandLine.Options.argument
  rw [hplain, if_neg Bool.false_ne_true]
  split
  · next heq => exact absurd (List.cons.inj (List.cons.inj heq).2).1 h
  · rfl

/-- Behind the short names of flags, an argument goes on as without them. -/
theorem argument_short_append {letters : Text} {flags : List ExpandOption}
    (h : Short letters flags) (rest : Text) (hne : letters ++ rest ≠ [])
    (hrest : rest.head? ≠ some '-') :
    options.argument ('-' :: (letters ++ rest)) =
      (flags.map .flag ++ (options.cluster rest).1, (options.cluster rest).2) := by
  rw [← cluster_append h]
  cases h with
  | nil =>
    cases rest with
    | nil => exact absurd rfl hne
    | cons c rest => exact argument_short rest fun hc => hrest (by rw [hc]; rfl)
  | cons hkey _ => exact argument_short _ (ne_hyphen_of_shortName? hkey.1)

/-- An argument is read as what it holds. -/
theorem argument_of_holds {t : Text} {reading : Reading ExpandOption} (h : Holds t reading) :
    options.argument t = reading := by
  cases h with
  | positional plain => exact if_pos plain
  | @long key bare =>
    have hread := longName_append key [] (.inl rfl)
    rwa [List.append_nil, ← argument_long, bare] at hread
  | @longPending key valued =>
    have hread := longName_append key [] (.inl rfl)
    rwa [List.append_nil, ← argument_long, valued] at hread
  | @longValue key value valued =>
    have hread := longName_append key ('=' :: value) (.inr rfl)
    rwa [← argument_long, valued] at hread
  | @short c letters flags short =>
    have hread := argument_short_append short [] (by simp) (by simp)
    rw [List.append_nil] at hread
    rw [hread, CommandLine.Options.cluster, List.append_nil]
  | @shortPending c letters flags key short named valued =>
    have hhead : ([c] : Text).head? ≠ some '-' := by
      simpa using ne_hyphen_of_shortName? named
    rw [argument_short_append short [c] (by simp) hhead, cluster_option [] named valued]
    simp
  | @shortValue c letters value flags key short named valued hvalue =>
    have hhead : (c :: value).head? ≠ some '-' := by
      simpa using ne_hyphen_of_shortName? named
    rw [argument_short_append short (c :: value) (by simp) hhead, cluster_option value named valued,
      if_neg hvalue]

/-! ### The command line

The induction is on how the command line is written. An option whose value is pending takes the
whole next argument, and behind two hyphens everything is positional. -/

/-- A command line is written in such a way that it holds the items. -/
inductive Written : List Text → List (Item ExpandOption) → Prop
  | nil : Written [] []
  /-- Everything behind two hyphens is positional, whatever it begins with. -/
  | verbatim (texts : List Text) : Written (['-', '-'] :: texts) (texts.map .positional)
  | complete {t : Text} {arguments : List Text} {held items : List (Item ExpandOption)}
      (first : Holds t (held, none)) (rest : Written arguments items) :
      Written (t :: arguments) (held ++ items)
  | pending {t value : Text} {arguments : List Text} {held items : List (Item ExpandOption)}
      {key : ExpandOption} (first : Holds t (held, some key)) (plain : isPlain value)
      (rest : Written arguments items) :
      Written (t :: value :: arguments) (held ++ .option key value :: items)

/-- An argument that is written as it should be can be read. -/
theorem malformed_notMem_of_holds {t : Text} {reading : Reading ExpandOption}
    (h : Holds t reading) : .malformed ∉ reading.1 := by
  cases h <;> simp

/-- Two hyphens hold nothing. -/
theorem ne_hyphens_of_holds {t : Text} {reading : Reading ExpandOption} (h : Holds t reading) :
    t ≠ ['-', '-'] := by
  rintro rfl
  have hread : options.argument ['-', '-'] = ([.malformed], none) := by decide
  apply malformed_notMem_of_holds h
  rw [← argument_of_holds h, hread]
  exact List.mem_cons_self

/-- A command line is read as it is written. -/
theorem items_of_written {arguments : List Text} {items : List (Item ExpandOption)}
    (h : Written arguments items) : options.items arguments = items := by
  induction h with
  | nil => rfl
  | verbatim texts => rfl
  | @complete t arguments held items first _ ih =>
    have hitems : options.itemsFrom none arguments = items := ih
    rw [CommandLine.Options.items, CommandLine.Options.itemsFrom,
      if_neg (ne_hyphens_of_holds first), argument_of_holds first]
    simp only [hitems]
  | @pending t value arguments held items key first plain _ ih =>
    have hitems : options.itemsFrom none arguments = items := ih
    rw [CommandLine.Options.items, CommandLine.Options.itemsFrom,
      if_neg (ne_hyphens_of_holds first), argument_of_holds first]
    simp only [CommandLine.Options.itemsFrom, plain, if_true, hitems]

/-- The item is the option with a value, if it takes one, and without a value, if it takes none. -/
inductive WellUsed (key : ExpandOption) : Item ExpandOption → Prop
  | flag (bare : key.takesValue = false) : WellUsed key (.flag key)
  | option (value : Text) (valued : key.takesValue) : WellUsed key (.option key value)

/-- Options can be written in front of anything else. -/
theorem exists_written_append {used items : List (Item ExpandOption)} {arguments : List Text}
    (hused : ∀ item ∈ used, ∃ key, WellUsed key item) (written : Written arguments items) :
    ∃ arguments', Written arguments' (used ++ items) := by
  induction used with
  | nil => exact ⟨arguments, written⟩
  | cons item used ih =>
    rw [List.forall_mem_cons] at hused
    obtain ⟨arguments', hrest⟩ := ih hused.2
    obtain ⟨key, hitem⟩ := hused.1
    -- A flag is one argument, and an option is one together with its value.
    cases hitem with
    | flag bare =>
      have hwritten := Written.complete (.long bare) hrest
      exact ⟨_, hwritten⟩
    | option value valued =>
      have hwritten := Written.complete (.longValue value valued) hrest
      exact ⟨_, hwritten⟩

/-! ### What is read is written

Here the induction is on the text. Items that are malformed are what the reader makes of everything
else, so without them each argument was written in one of the ways of `Holds`. -/

/-- An option that is found has the long name. -/
theorem longName_of_long? {name : Text} {key : ExpandOption} (h : options.long? name = some key) :
    key.longName = name := by
  have hfind : ExpandOption.all.find? (fun key => key.longName == name) = some key := h
  simpa using List.find?_some hfind

/-- An option that is found has the short name. -/
theorem shortName?_of_short? {c : Char} {key : ExpandOption} (h : options.short? c = some key) :
    key.shortName? = some c := by
  have hfind : ExpandOption.all.find? (fun key => key.shortName? == some c) = some key := h
  simpa using List.find?_some hfind

/-- What is read of a long name is written so. -/
theorem holds_longName {name : Text} (h : .malformed ∉ (options.longName name).1) :
    Holds ('-' :: '-' :: name) (options.longName name) := by
  have hsplit : name.takeWhile (· != '=') ++ name.dropWhile (· != '=') = name :=
    List.takeWhile_append_dropWhile
  rw [CommandLine.Options.longName] at h ⊢
  cases hlong : options.long? (name.takeWhile (· != '=')) with
  | none => simp [hlong] at h
  | some key =>
    rw [← longName_of_long? hlong] at hsplit
    rw [hlong] at h
    cases hdrop : name.dropWhile (· != '=') with
    | nil =>
      rw [hdrop, List.append_nil] at hsplit
      subst hsplit
      cases hvalue : options.takesValue key with
      | true => simpa [hvalue] using Holds.longPending hvalue
      | false => simpa [hvalue] using Holds.long hvalue
    | cons c value =>
      -- The name ends at an equals sign.
      have hhead := List.head?_dropWhile_not (· != '=') name
      obtain rfl : c = '=' := by simpa [hdrop] using hhead
      rw [hdrop] at hsplit h
      subst hsplit
      cases hvalue : options.takesValue key with
      | true => simpa [hvalue] using Holds.longValue value hvalue
      | false => simp [hvalue] at h

/-- What is read of short names is written so. The flags that were read already stand in front. -/
theorem holds_cluster {t letters : Text} {flags : List ExpandOption} (short : Short letters flags)
    (hne : letters ++ t ≠ []) (h : .malformed ∉ (options.cluster t).1) :
    Holds ('-' :: (letters ++ t))
      (flags.map .flag ++ (options.cluster t).1, (options.cluster t).2) := by
  induction t generalizing letters flags with
  | nil =>
    cases letters with
    | nil => exact absurd rfl hne
    | cons c letters => simpa [CommandLine.Options.cluster] using Holds.short short
  | cons c rest ih =>
    rw [CommandLine.Options.cluster] at h ⊢
    cases hshort : options.short? c with
    | none => simp [hshort] at h
    | some key =>
      -- A name of a flag joins the flags in front. Any other name ends them, and what is behind it
      -- is its value.
      have named : key.shortName? = some c := shortName?_of_short? hshort
      cases hvalue : options.takesValue key with
      | true =>
        by_cases hrest : rest = []
        · simpa [hvalue, hrest] using Holds.shortPending short named hvalue
        · simpa [hvalue, hrest] using Holds.shortValue short named hvalue hrest
      | false =>
        have hmore : Short (letters ++ [c]) (flags ++ [key]) :=
          List.rel_append short (.cons ⟨named, hvalue⟩ .nil)
        have hrest : .malformed ∉ (options.cluster rest).1 := by
          simpa [hshort, hvalue] using h
        simpa [hvalue] using ih hmore (by simp) hrest

/-- What is not plain has something behind its hyphen. -/
theorem exists_of_not_isPlain {t : Text} (h : isPlain t = false) :
    ∃ c rest, t = '-' :: c :: rest := by
  match t with
  | [] => exact nomatch h
  | [c] => simp [isPlain] at h
  | c :: d :: rest =>
    obtain rfl : c = '-' := by simpa [isPlain] using h
    exact ⟨d, rest, rfl⟩

/-- What is read of an argument is written so. -/
theorem holds_argument {t : Text} (h : .malformed ∉ (options.argument t).1) :
    Holds t (options.argument t) := by
  cases hplain : isPlain t with
  | true =>
    have hread : options.argument t = ([.positional t], none) := if_pos hplain
    rw [hread]
    exact .positional hplain
  | false =>
    -- The second hyphen tells a long name from short ones.
    obtain ⟨c, rest, rfl⟩ := exists_of_not_isPlain hplain
    by_cases hc : c = '-'
    · subst hc
      rw [argument_long] at h ⊢
      exact holds_longName h
    · rw [argument_short rest hc] at h ⊢
      simpa using holds_cluster .nil (by simp) h

/-- What is read of a command line is written so. -/
theorem written_items (arguments : List Text) (h : .malformed ∉ options.items arguments) :
    Written arguments (options.items arguments) := by
  match arguments with
  | [] => exact .nil
  | first :: rest =>
    rw [CommandLine.Options.items, CommandLine.Options.itemsFrom] at h ⊢
    by_cases hverbatim : first = ['-', '-']
    · subst hverbatim
      simpa using Written.verbatim rest
    · rw [if_neg hverbatim] at h ⊢
      have hholds : .malformed ∉ (options.argument first).1 := by
        intro hmem
        exact h (List.mem_append_left _ hmem)
      have hfirst := holds_argument hholds
      rcases hread : options.argument first with ⟨held, pending⟩
      rw [hread] at h hfirst
      cases pending with
      | none =>
        have hrest : .malformed ∉ options.items rest := fun hmem =>
          h (List.mem_append_right _ hmem)
        exact .complete hfirst (written_items rest hrest)
      | some key =>
        -- The value has to be there, and it has to be plain.
        cases rest with
        | nil => simp [CommandLine.Options.itemsFrom] at h
        | cons value rest =>
          simp only [CommandLine.Options.itemsFrom] at h ⊢
          cases hplain : isPlain value with
          | false => simp [hplain] at h
          | true =>
            simp only [hplain, if_true] at h ⊢
            have hrest : .malformed ∉ options.items rest := fun hmem =>
              h (List.mem_append_right _ (List.mem_cons_of_mem _ hmem))
            exact .pending hfirst hplain (written_items rest hrest)
termination_by arguments.length

end AsmVariants.Proofs
