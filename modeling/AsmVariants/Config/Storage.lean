import AsmVariants.Config.Reading

/-!
# `AsmVariants.Config.Storage`: configurations in files

A configuration is saved as a JSON object with one member on each line, and it is loaded from
whatever text `Config.ofText?` reads.
-/

set_option autoImplicit false

namespace AsmVariants.Config

/-- A text in double quotes, for names that need no escape. -/
def quoted (name : Text) : Text := ['\x22'] ++ name ++ ['\x22']

/-- A line that holds one member of an object. -/
def memberLine (key value ending : Text) : Text :=
  [' ', ' '] ++ quoted key ++ [':', ' '] ++ value ++ ending ++ ['\n']

/-- A limit as a JSON text. -/
def limitText (limit : Option UInt64) : Text :=
  limit.elim "null".toList fun most => Text.ofNat most.toNat

/-- A truth value as a JSON text. -/
def boolText (value : Bool) : Text := if value then "true".toList else "false".toList

/-- The text that the configuration is saved as. -/
def toText (config : Config) : Text :=
  ['\x7b', '\n'] ++
    memberLine orderKey (quoted config.order.name) [','] ++
    memberLine limitKey (limitText config.limit) [','] ++
    memberLine dryRunKey (boolText config.dryRun) [] ++
    ['\x7d']

section

variable {m : Type → Type} [Monad m] [FileAccess m]

/-- Saves a configuration to a file. -/
def save (path : Path) (config : Config) : m (Except ConfigError Unit) := do
  match ← writeText path config.toText with
  | .error cause => return .error (.unwritable path cause)
  | .ok () => return .ok ()

/-- Loads a configuration from a file. -/
def load (path : Path) : m (Except ConfigError Config) := do
  match ← readText path with
  | .error cause => return .error (.unreadable path cause)
  | .ok text =>
    match ofText? text with
    | none => return .error .malformed
    | some config => return .ok config

end

end AsmVariants.Config
