import AsmVariants.Config.Basic
import AsmVariants.Expansion.Trace
import AsmVariants.Output

/-!
# `AsmVariants.Run`: a run from the template's file to the files of its variants

A run reads a template, expands it, and writes the variants beside it, or only names them. The
expansion is complete before the first file is written, so a template that cannot be read or
expanded leaves no file behind. Its answer has two parts: the events on the way, and the outputs
or the error that ended it.
-/

set_option autoImplicit false

namespace AsmVariants

/-- Why a run ends without outputs. -/
inductive RunError where
  | unreadable (path : Path) (cause : FileError)
  | expansion (error : ExpansionError)
  | unwritable (failure : WriteFailure)
  deriving DecidableEq

namespace RunError

/-- The wording of the error. -/
def message : RunError → Text
  | unreadable path cause =>
    "Cannot read template ".toList ++ path.text ++ ": ".toList ++ cause.message
  | expansion error => error.message
  | unwritable failure => failure.message

/-- The error of the file system behind it, if there is one. -/
def cause? : RunError → Option FileError
  | unreadable _ cause => some cause
  | expansion _ => none
  | unwritable failure => some failure.cause

end RunError

/-- A variant that was written, or would be. -/
structure Output where
  path : Path
  choices : List Choice
  deriving DecidableEq

/-- What a run made. -/
structure RunReport where
  /-- The outputs, in the order of the variants. -/
  outputs : List Output
  written : Bool
  deriving DecidableEq

/-- The outputs at some paths, one for each variant. -/
def outputsAt (paths : List Path) (variants : List Variant) : List Output :=
  paths.zipWith (fun path variant => ⟨path, variant.choices⟩) variants

/-- The outputs that some variants of a template lead to. -/
def outputsOf (input : Path) (variants : List Variant) : List Output :=
  outputsAt (input.variants variants.length) variants

section

variable {m : Type → Type} [Monad m] [FileAccess m]

/-- Writes variants, unless they are only to be named. The report has the paths that were written,
and those that would be if nothing is. -/
def deliver (dryRun : Bool) (input : Path) (variants : List Variant) :
    m (List Event × Except RunError RunReport) := do
  if dryRun then
    return ([], .ok ⟨outputsOf input variants, false⟩)
  let (written, failure?) ← writeVariants input variants
  let events := written.map Event.wrote
  match failure? with
  | some failure => return (events, .error (.unwritable failure))
  | none => return (events, .ok ⟨outputsAt written variants, true⟩)

/-- Expands a template from a file with the settings of a configuration. -/
def run (config : Config) (input : Path) : m (List Event × Except RunError RunReport) := do
  match ← readText input with
  | .error cause => return ([], .error (.unreadable input cause))
  | .ok text =>
    let template := Template.ofText text
    let placeholders := template.placeholders config.order
    let events := .loaded input template.lines.length :: .found input placeholders ::
      expandEvents config.limit template placeholders
    match expand config.limit template placeholders with
    | .error error => return (events, .error (.expansion error))
    | .ok variants =>
      let (later, result) ← deliver config.dryRun input variants
      return (events ++ later, result)

end

end AsmVariants
