import AsmVariants.CommandLine.Item
import AsmVariants.Config.Basic
import AsmVariants.Decimal.Natural

/-!
# `AsmVariants.CommandLine.Invocation`: what a command line asks to expand

The items of a command line are taken one by one, and the first that asks for help or the
version, or that cannot be taken, decides. Each option may be given once, whichever of its names
is used, and there is exactly one template.

`Invocation.applyTo` lays the options over a configuration: an option that is given goes before
the setting, and writing is off if either of them turns it off.
-/

set_option autoImplicit false

namespace AsmVariants

/-- The options of the program that expands templates. -/
inductive ExpandOption where
  | order
  | limit
  | dryRun
  | config
  | verbose
  | help
  | version
  deriving DecidableEq

namespace ExpandOption

/-- The long name of an option. -/
def longName : ExpandOption → Text
  | order => "order".toList
  | limit => "max-variants".toList
  | dryRun => "dry-run".toList
  | config => "config".toList
  | verbose => "verbose".toList
  | help => "help".toList
  | version => "version".toList

/-- The short name of an option, if it has one. -/
def shortName? : ExpandOption → Option Char
  | order | limit | dryRun => none
  | config => some 'c'
  | verbose => some 'v'
  | help => some 'h'
  | version => some 'V'

/-- All options. -/
def all : List ExpandOption := [order, limit, dryRun, config, verbose, help, version]

/-- Whether an option takes a value. -/
def takesValue : ExpandOption → Bool
  | order | limit | config => true
  | dryRun | verbose | help | version => false

/-- The options by their names. -/
def options : CommandLine.Options ExpandOption where
  long? name := all.find? fun key => key.longName == name
  short? c := all.find? fun key => key.shortName? == some c
  takesValue := takesValue

end ExpandOption

/-- What a command line asks for. -/
structure Invocation where
  template : Path
  order : Option PlaceholderOrder
  limit : Option UInt64
  dryRun : Bool
  config : Option Path
  verbose : Bool
  deriving DecidableEq

namespace Invocation

open CommandLine (Item Refusal)

/-- What the items of a command line have asked for so far. -/
structure Draft where
  template : Option Path := none
  order : Option PlaceholderOrder := none
  limit : Option UInt64 := none
  dryRun : Bool := false
  config : Option Path := none
  verbose : Bool := false
  deriving DecidableEq

/-- A path in an argument may not be empty. -/
def path? (t : Text) : Option Path := if t = [] then none else some ⟨t⟩

/-- A limit in an argument may have a plus sign. -/
def limit? (t : Text) : Option UInt64 :=
  Text.toUInt64? (if t.head? = some '+' then t.tail else t)

/-- Gives a value to something that has none yet, if the value could be read. -/
def give {α : Type} (old new : Option α) : Except Refusal (Option α) :=
  match old, new with
  | none, some value => .ok (some value)
  | _, _ => .error .usage

/-- Raises a flag that is not raised yet. -/
def raise (old : Bool) : Except Refusal Bool := if old then .error .usage else .ok true

namespace Draft

/-- Takes an option without a value. -/
def takeFlag (draft : Draft) : ExpandOption → Except Refusal Draft
  | .dryRun => do return { draft with dryRun := ← raise draft.dryRun }
  | .verbose => do return { draft with verbose := ← raise draft.verbose }
  | .help => .error .help
  | .version => .error .version
  | .order | .limit | .config => .error .usage

/-- Takes an option with its value. -/
def takeOption (draft : Draft) (value : Text) : ExpandOption → Except Refusal Draft
  | .order => do
    return { draft with order := ← give draft.order (PlaceholderOrder.ofName? value) }
  | .limit => do return { draft with limit := ← give draft.limit (limit? value) }
  | .config => do return { draft with config := ← give draft.config (path? value) }
  | .dryRun | .verbose | .help | .version => .error .usage

/-- Takes an item. -/
def take (draft : Draft) : Item ExpandOption → Except Refusal Draft
  | .flag key => draft.takeFlag key
  | .option key value => draft.takeOption value key
  | .positional value => do
    return { draft with template := ← give draft.template (path? value) }
  | .malformed => .error .usage

/-- What is asked for at the end, if there is a template. -/
def finish (draft : Draft) : Except Refusal Invocation :=
  match draft.template with
  | none => .error .usage
  | some template =>
    .ok ⟨template, draft.order, draft.limit, draft.dryRun, draft.config, draft.verbose⟩

end Draft

/-- What some items ask for. -/
def ofItems (items : List (Item ExpandOption)) : Except Refusal Invocation := do
  (← items.foldlM Draft.take {}).finish

/-- What a command line asks for. -/
def ofArguments (arguments : List Text) : Except Refusal Invocation :=
  ofItems (ExpandOption.options.items arguments)

/-- The configuration with the options of the command line laid over it. -/
def applyTo (invocation : Invocation) (base : Config) : Config where
  order := invocation.order.getD base.order
  limit := invocation.limit.or base.limit
  dryRun := base.dryRun || invocation.dryRun

end Invocation

end AsmVariants
