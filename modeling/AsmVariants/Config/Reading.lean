import AsmVariants.Config.Basic
import AsmVariants.Decimal.Natural
import AsmVariants.Json.Reader

/-!
# `AsmVariants.Config.Reading`: configurations as JSON documents

A configuration is written as an object, whose members are settings, or as an array, whose items
are the settings in order. Settings that are left out have their default. An object may have
members that are no settings, and these are ignored; an array may not.
-/

set_option autoImplicit false

namespace AsmVariants.Config

/-- The name of the setting for the order. -/
def orderKey : Text := "order".toList

/-- The name of the setting for the limit. -/
def limitKey : Text := "max_variants".toList

/-- The name of the setting that keeps variants from being written. -/
def dryRunKey : Text := "dry_run".toList

/-- An order: its name, or an object that has the name as its only key, and null behind it. -/
def orderOfJson? : Json → Option PlaceholderOrder
  | .string (some name) => PlaceholderOrder.ofName? name
  | .object [(some name, .null)] => PlaceholderOrder.ofName? name
  | _ => none

/-- A limit: null for none, or a plain integer of at most 64 bits. -/
def limitOfJson? : Json → Option (Option UInt64)
  | .null => some none
  | .number literal => (Text.toUInt64? literal).map some
  | _ => none

/-- A truth value. -/
def dryRunOfJson? : Json → Option Bool
  | .bool value => some value
  | _ => none

/-- The values that the members of an object have under one key. -/
def valuesAt (key : Text) (members : List (Option Text × Json)) : List Json :=
  members.filterMap fun (name, value) => if name = some key then some value else none

/-- Reads a setting from the values that are given for it, of which there may be one. -/
def setting? {α : Type} (read? : Json → Option α) (default : α) : List Json → Option α
  | [] => some default
  | [value] => read? value
  | _ => none

/-- The configuration whose settings are the values in three lists. -/
def ofValues? (order limit dryRun : List Json) : Option Config := do
  let standard : Config := {}
  let order ← setting? orderOfJson? standard.order order
  let limit ← setting? limitOfJson? standard.limit limit
  let dryRun ← setting? dryRunOfJson? standard.dryRun dryRun
  return ⟨order, limit, dryRun⟩

/-- The configuration that a document holds. A key has to be a text. -/
def ofJson? : Json → Option Config
  | .object members =>
    if members.any (·.1.isNone) then none
    else
      ofValues? (valuesAt orderKey members) (valuesAt limitKey members)
        (valuesAt dryRunKey members)
  | .array items =>
    if 3 < items.length then none
    else ofValues? items[0]?.toList items[1]?.toList items[2]?.toList
  | _ => none

/-- The configuration that a text holds. -/
def ofText? (t : Text) : Option Config := (Json.ofText? t).bind ofJson?

end AsmVariants.Config
