import AsmVariants.Proofs.CommandLine.Invocation

/-!
# `AsmVariants.Proofs.CommandLine.Grammar`: the command lines that ask for an expansion

`Written` is about any option that is given in any way. This module has the command lines that do
not ask for help or for the version, with the names spelled out. Such a command line is
`Grammatical`: one `Phrase` behind another, and maybe two hyphens with positional arguments behind
them.

`grammatical_iff` says that these are the command lines that are written with items that all ask for
an expansion, and `grammatical_items_iff` that they are those that are read as such items. So a
command line has at most one reading by the grammar.
-/

set_option autoImplicit false

namespace AsmVariants.Proofs

open CommandLine (Item dropEquals isPlain)
open ExpandOption (options)

/-! ### The grammar

An argument is `Free` if it cannot be mistaken for an option. Only such an argument can be the value
of an option that stands in front of it. -/

/-- An argument that can stand by itself does not begin with a hyphen, unless it is one. -/
def Free (t : Text) : Prop := t.head? ≠ some '-' ∨ t = ['-']

/-- Whether an argument can stand by itself is told by its first character. -/
instance (t : Text) : Decidable (Free t) := inferInstanceAs (Decidable (_ ∨ _))

/-- The long names of the options without a value. -/
def flagNames : List (Text × ExpandOption) :=
  [("--dry-run".toList, .dryRun), ("--verbose".toList, .verbose)]

/-- The long names of the options with a value. -/
def valueNames : List (Text × ExpandOption) :=
  [("--order".toList, .order), ("--max-variants".toList, .limit), ("--config".toList, .config)]

/-- So many letters for a flag, and the flags. -/
def verboseLetters (count : Nat) : Text := List.replicate count 'v'

/-- The items of these letters. -/
def verboseItems (count : Nat) : List (Item ExpandOption) :=
  List.replicate count (.flag .verbose)

/-- Arguments that belong together, and the items in them. -/
inductive Phrase : List Text → List (Item ExpandOption) → Prop
  | positional {value : Text} (free : Free value) : Phrase [value] [.positional value]
  | flag {name : Text} {key : ExpandOption} (named : (name, key) ∈ flagNames) :
      Phrase [name] [.flag key]
  /-- The value is the next argument. -/
  | optionNext {name value : Text} {key : ExpandOption} (named : (name, key) ∈ valueNames)
      (free : Free value) : Phrase [name, value] [.option key value]
  /-- The value is behind an equals sign. -/
  | optionEquals {name : Text} {key : ExpandOption} (named : (name, key) ∈ valueNames)
      (value : Text) : Phrase [name ++ '=' :: value] [.option key value]
  | verbose (count : Nat) :
      Phrase ['-' :: verboseLetters (count + 1)] (verboseItems (count + 1))
  | configNext {value : Text} (count : Nat) (free : Free value) :
      Phrase ['-' :: (verboseLetters count ++ ['c']), value]
        (verboseItems count ++ [.option .config value])
  | configEquals (count : Nat) (value : Text) :
      Phrase ['-' :: (verboseLetters count ++ 'c' :: '=' :: value)]
        (verboseItems count ++ [.option .config value])
  /-- The value is directly behind the letter. -/
  | configAttached {value : Text} (count : Nat) (ne_nil : value ≠ [])
      (head : value.head? ≠ some '=') :
      Phrase ['-' :: (verboseLetters count ++ 'c' :: value)]
        (verboseItems count ++ [.option .config value])

/-- A command line, and the items in it. -/
inductive Grammatical : List Text → List (Item ExpandOption) → Prop
  | nil : Grammatical [] []
  /-- Everything behind two hyphens is positional. -/
  | verbatim (texts : List Text) : Grammatical ("--".toList :: texts) (texts.map .positional)
  | cons {words arguments : List Text} {held items : List (Item ExpandOption)}
      (first : Phrase words held) (rest : Grammatical arguments items) :
      Grammatical (words ++ arguments) (held ++ items)

/-- An item that asks for an expansion. -/
inductive Asks : Item ExpandOption → Prop
  | template (value : Text) : Asks (.positional value)
  | order (value : Text) : Asks (.option .order value)
  | limit (value : Text) : Asks (.option .limit value)
  | config (value : Text) : Asks (.option .config value)
  | dryRun : Asks (.flag .dryRun)
  | verbose : Asks (.flag .verbose)

/-! ### What the grammar allows is written

Each phrase is a way of writing its items in the sense of `Written`, and its items ask for an
expansion. -/

/-- The test of the reader is the condition of the grammar. -/
theorem isPlain_iff_free {t : Text} : isPlain t ↔ Free t := by
  simp [isPlain, Free]

/-- A long name without a value is two hyphens and the name of its option, which asks for an
expansion. -/
theorem long_of_mem_flagNames {name : Text} {key : ExpandOption} (h : (name, key) ∈ flagNames) :
    name = '-' :: '-' :: key.longName ∧ key.takesValue = false ∧ Asks (.flag key) := by
  simp only [flagNames, List.mem_cons, Prod.mk.injEq, List.not_mem_nil, or_false] at h
  rcases h with ⟨rfl, rfl⟩ | ⟨rfl, rfl⟩
  · exact ⟨rfl, rfl, .dryRun⟩
  · exact ⟨rfl, rfl, .verbose⟩

/-- A long name with a value is two hyphens and the name of its option, which asks for an expansion
whatever the value is. -/
theorem long_of_mem_valueNames {name : Text} {key : ExpandOption} (h : (name, key) ∈ valueNames) :
    name = '-' :: '-' :: key.longName ∧ key.takesValue = true ∧
      ∀ value, Asks (.option key value) := by
  simp only [valueNames, List.mem_cons, Prod.mk.injEq, List.not_mem_nil, or_false] at h
  rcases h with ⟨rfl, rfl⟩ | ⟨rfl, rfl⟩ | ⟨rfl, rfl⟩
  · exact ⟨rfl, rfl, .order⟩
  · exact ⟨rfl, rfl, .limit⟩
  · exact ⟨rfl, rfl, .config⟩

/-- One letter after another can be given behind one hyphen. -/
theorem short_verboseLetters (count : Nat) :
    Short (verboseLetters count) (List.replicate count .verbose) := by
  induction count with
  | zero => exact .nil
  | succ count ih => exact .cons ⟨rfl, rfl⟩ ih

/-- Each of these letters is an item of its own. -/
theorem map_flag_replicate (count : Nat) :
    (List.replicate count ExpandOption.verbose).map .flag = verboseItems count := by
  rw [verboseItems, List.map_replicate]

/-- All these items ask for an expansion. -/
theorem asks_of_mem_verboseItems {count : Nat} {item : Item ExpandOption}
    (h : item ∈ verboseItems count) : Asks item := by
  rw [(List.mem_replicate.mp h).2]
  exact .verbose

/-- A phrase in front of a command line is written as the command line is. Each kind of phrase is
one argument that is complete, or one that is pending and takes its value from the next. -/
theorem Phrase.written {words arguments : List Text} {held items : List (Item ExpandOption)}
    (h : Phrase words held) (rest : Written arguments items) :
    Written (words ++ arguments) (held ++ items) := by
  cases h with
  | positional free => exact .complete (.positional (isPlain_iff_free.mpr free)) rest
  | flag named =>
    obtain ⟨rfl, bare, -⟩ := long_of_mem_flagNames named
    exact .complete (.long bare) rest
  | optionNext named free =>
    obtain ⟨rfl, valued, -⟩ := long_of_mem_valueNames named
    exact .pending (.longPending valued) (isPlain_iff_free.mpr free) rest
  | optionEquals named value =>
    obtain ⟨rfl, valued, -⟩ := long_of_mem_valueNames named
    exact .complete (.longValue value valued) rest
  | verbose count =>
    rw [← map_flag_replicate]
    exact .complete (.short (short_verboseLetters (count + 1))) rest
  | @configNext value count free =>
    rw [← map_flag_replicate, List.append_assoc]
    exact .pending (.shortPending (short_verboseLetters count) rfl rfl)
      (isPlain_iff_free.mpr free) rest
  | configEquals count value =>
    rw [← map_flag_replicate]
    exact .complete (.shortValue (short_verboseLetters count) rfl rfl (by simp)) rest
  | @configAttached value count ne_nil head =>
    -- A value that is attached loses an equals sign in front, and this one has none.
    have hvalue : dropEquals value = value := if_neg head
    have hwritten := Written.complete
      (@Holds.shortValue 'c' _ value _ .config (short_verboseLetters count) rfl rfl ne_nil) rest
    rwa [hvalue, map_flag_replicate] at hwritten

/-- There is no phrase for help or for the version. -/
theorem Phrase.asks {words : List Text} {held : List (Item ExpandOption)} (h : Phrase words held) :
    ∀ item ∈ held, Asks item := by
  cases h with
  | positional _ => exact List.forall_mem_singleton.mpr (.template _)
  | flag named => exact List.forall_mem_singleton.mpr (long_of_mem_flagNames named).2.2
  | optionNext named _ | optionEquals named _ =>
    exact List.forall_mem_singleton.mpr ((long_of_mem_valueNames named).2.2 _)
  | verbose count => exact fun item => asks_of_mem_verboseItems
  | configNext count _ | configEquals count _ | configAttached count _ _ =>
    rw [List.forall_mem_append, List.forall_mem_singleton]
    exact ⟨fun item => asks_of_mem_verboseItems, .config _⟩

section

variable {arguments : List Text} {items : List (Item ExpandOption)}

/-- What belongs to the grammar is written with its items, phrase by phrase. -/
theorem Grammatical.written (h : Grammatical arguments items) : Written arguments items := by
  induction h with
  | nil => exact .nil
  | verbatim texts => exact .verbatim texts
  | cons first _ ih => exact first.written ih

/-- All items of a command line that belongs to the grammar ask for an expansion. -/
theorem Grammatical.asks (h : Grammatical arguments items) : ∀ item ∈ items, Asks item := by
  induction h with
  | nil => simp
  | verbatim texts =>
    rw [List.forall_mem_map]
    exact fun value _ => .template value
  | cons first _ ih =>
    rw [List.forall_mem_append]
    exact ⟨first.asks, ih⟩

end

/-! ### What is written and asks for an expansion is allowed

The other direction goes through the ways of writing an argument. The names that ask for help or for
the version are ruled out by what the items ask for. -/

/-- An option without a value that asks for an expansion has its long name in the list. -/
theorem mem_flagNames {key : ExpandOption} (h : Asks (.flag key)) :
    ('-' :: '-' :: key.longName, key) ∈ flagNames := by
  cases h <;> decide

/-- An option with a value that asks for an expansion has its long name in the list. -/
theorem mem_valueNames {key : ExpandOption} {value : Text} (h : Asks (.option key value)) :
    ('-' :: '-' :: key.longName, key) ∈ valueNames := by
  cases h <;> decide

/-- Of these options, one without a value has a short name. -/
theorem verbose_of_shortName? {key : ExpandOption} {c : Char} (h : Asks (.flag key))
    (named : key.shortName? = some c) : key = .verbose ∧ c = 'v' := by
  cases h with
  | dryRun => exact nomatch named
  | verbose => exact ⟨rfl, (Option.some.inj named).symm⟩

/-- Of these options, one with a value has a short name. -/
theorem config_of_shortName? {key : ExpandOption} {value : Text} {c : Char}
    (h : Asks (.option key value)) (named : key.shortName? = some c) :
    key = .config ∧ c = 'c' := by
  cases h with
  | order | limit => exact nomatch named
  | config => exact ⟨rfl, (Option.some.inj named).symm⟩

/-- Letters behind one hyphen that all ask for an expansion are those of one flag, given so many
times. -/
theorem exists_verboseLetters {letters : Text} {flags : List ExpandOption}
    (short : Short letters flags) (asks : ∀ item ∈ flags.map Item.flag, Asks item) :
    ∃ count, letters = verboseLetters count ∧ flags.map .flag = verboseItems count := by
  induction short with
  | nil => exact ⟨0, rfl, rfl⟩
  | cons named _ ih =>
    rw [List.map_cons, List.forall_mem_cons] at asks
    obtain ⟨rfl, rfl⟩ := verbose_of_shortName? asks.1 named.1
    obtain ⟨count, rfl, hflags⟩ := ih asks.2
    exact ⟨count + 1, rfl, by rw [List.map_cons, hflags]; rfl⟩

/-- An argument that is complete is a phrase. -/
theorem phrase_of_holds {t : Text} {held : List (Item ExpandOption)} (h : Holds t (held, none))
    (asks : ∀ item ∈ held, Asks item) : Phrase [t] held := by
  cases h with
  | positional plain => exact .positional (isPlain_iff_free.mp plain)
  | long bare => exact .flag (mem_flagNames (asks _ List.mem_cons_self))
  | longValue value valued =>
    exact .optionEquals (mem_valueNames (asks _ List.mem_cons_self)) value
  | short short =>
    obtain ⟨count, hletters, hitems⟩ := exists_verboseLetters short asks
    cases count with
    | zero => exact nomatch hletters
    | succ count =>
      rw [hletters, hitems]
      exact .verbose count
  | @shortValue c letters value flags key short named valued value_ne_nil =>
    rw [List.forall_mem_append, List.forall_mem_singleton] at asks
    obtain ⟨count, rfl, hitems⟩ := exists_verboseLetters short asks.1
    obtain ⟨rfl, rfl⟩ := config_of_shortName? asks.2 named
    rw [hitems, dropEquals]
    -- An equals sign behind the letter is not part of the value.
    by_cases hhead : value.head? = some '='
    · obtain ⟨rest, rfl⟩ := List.head?_eq_some_iff.mp hhead
      exact .configEquals count rest
    · rw [if_neg hhead]
      exact .configAttached count value_ne_nil hhead

/-- An argument that leaves a value to the next one is a phrase together with it. -/
theorem phrase_of_holds_pending {t value : Text} {held : List (Item ExpandOption)}
    {key : ExpandOption} (h : Holds t (held, some key)) (free : Free value)
    (asks : ∀ item ∈ held ++ [.option key value], Asks item) :
    Phrase [t, value] (held ++ [.option key value]) := by
  rw [List.forall_mem_append, List.forall_mem_singleton] at asks
  cases h with
  | longPending valued => exact .optionNext (mem_valueNames asks.2) free
  | shortPending short named valued =>
    obtain ⟨count, rfl, hitems⟩ := exists_verboseLetters short asks.1
    obtain ⟨rfl, rfl⟩ := config_of_shortName? asks.2 named
    rw [hitems]
    exact .configNext count free

/-- A command line that is written with items which all ask for an expansion belongs to the grammar.
The induction is on how it is written, and each argument is a phrase, by itself or with the next
one. -/
theorem grammatical_of_written {arguments : List Text} {items : List (Item ExpandOption)}
    (written : Written arguments items) (asks : ∀ item ∈ items, Asks item) :
    Grammatical arguments items := by
  induction written with
  | nil => exact .nil
  | verbatim texts => exact .verbatim texts
  | complete first _ ih =>
    rw [List.forall_mem_append] at asks
    exact .cons (phrase_of_holds first asks.1) (ih asks.2)
  | @pending t value arguments held items key first plain _ ih =>
    -- The phrase ends behind the value, which is the next argument.
    have hsplit : held ++ .option key value :: items = held ++ [.option key value] ++ items := by
      simp
    rw [hsplit] at asks ⊢
    have hasks := List.forall_mem_append.mp asks
    exact .cons (phrase_of_holds_pending first (isPlain_iff_free.mp plain) hasks.1) (ih hasks.2)

/-- The grammar has the command lines that are written with items that ask for an expansion. -/
theorem grammatical_iff {arguments : List Text} {items : List (Item ExpandOption)} :
    Grammatical arguments items ↔ Written arguments items ∧ ∀ item ∈ items, Asks item :=
  ⟨fun h => ⟨h.written, h.asks⟩, fun h => grammatical_of_written h.1 h.2⟩

/-- A command line belongs to the grammar if all that is read of it asks for an expansion. -/
theorem grammatical_items_iff {arguments : List Text} :
    Grammatical arguments (options.items arguments) ↔
      ∀ item ∈ options.items arguments, Asks item := by
  constructor
  · exact Grammatical.asks
  · intro asks
    -- What asks for an expansion could be read.
    have hread : .malformed ∉ options.items arguments := fun hmem => nomatch asks _ hmem
    exact grammatical_iff.mpr ⟨written_items arguments hread, asks⟩

end AsmVariants.Proofs
