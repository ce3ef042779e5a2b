import AsmVariants.Files.Access
import AsmVariants.Placeholder.Order
import AsmVariants.Text.Quoted

/-!
# `AsmVariants.Config.Basic`: the settings of a run

A configuration has three settings, each with a default. `Config.validate` refuses a limit of
zero, which would admit no variant at all.
-/

set_option autoImplicit false

namespace AsmVariants

/-- The settings of a run. -/
structure Config where
  /-- The order in which placeholders are expanded. -/
  order : PlaceholderOrder := .firstSeen
  /-- The greatest number of variants, if there is one. -/
  limit : Option UInt64 := none
  /-- Whether the variants are named only, and not written. -/
  dryRun : Bool := false
  deriving DecidableEq

/-- What is wrong with a configuration. -/
inductive ConfigError where
  | unreadable (path : Path) (cause : FileError)
  | unwritable (path : Path) (cause : FileError)
  /-- The text of the file is not that of a configuration. -/
  | malformed
  | zeroLimit
  deriving DecidableEq

namespace ConfigError

/-- The wording of the error. -/
def message : ConfigError → Text
  | unreadable path _ =>
    "Failed to read configuration from ".toList ++ Text.quote path.text
  | unwritable path _ =>
    "Failed to write configuration to ".toList ++ Text.quote path.text
  | malformed => "Failed to parse configuration JSON".toList
  | zeroLimit => "max_variants must be at least 1".toList

/-- The error of the file system behind it, if there is one. -/
def cause? : ConfigError → Option FileError
  | unreadable _ cause | unwritable _ cause => some cause
  | malformed | zeroLimit => none

end ConfigError

/-- Fails if no run can succeed with the configuration. -/
def Config.validate (config : Config) : Except ConfigError Unit :=
  if config.limit = some 0 then .error .zeroLimit else .ok ()

end AsmVariants
