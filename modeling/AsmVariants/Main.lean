import AsmVariants.CommandLine.ExpandCommand
import AsmVariants.CommandLine.TotalsCommand

/-!
# `AsmVariants.Main`: the two programs

The file system of the machine gives `IO` its file access, and `main` is the program that
expands templates, or, under the name `zasm-bench-totals`, the one that adds up benchmarks. Texts
go to the output, reports and events to the error output.
-/

set_option autoImplicit false

namespace AsmVariants

/-- The number of an error. Some calls of the machine answer it with a minus sign. -/
def errorNumber (code : UInt32) : UInt32 := if code < 0x80000000 then code else 0 - code

/-- An error of the machine as a value. -/
def FileError.ofIO (error : IO.Error) : FileError :=
  match error with
  | .noFileOrDirectory .. => .notFound
  | .inappropriateType _ code _ | .invalidArgument _ code _ | .resourceExhausted _ code _
  | .permissionDenied _ code _ | .illegalOperation code _ | .otherError code _ =>
    match (errorNumber code).toNat with
    | 13 => .other "Permission denied (os error 13)".toList
    | 20 => .notADirectory
    | 21 => .isADirectory
    | 36 => .nameTooLong
    | _ => .other (toString error).toList
  | _ => .other (toString error).toList

/-- The result of an action, or its error as a value. -/
def catchFileError {α : Type} (action : IO α) : IO (Except FileError α) := do
  match ← action.toBaseIO with
  | .ok result => return .ok result
  | .error error => return .error (FileError.ofIO error)

instance : FileAccess IO where
  read path := catchFileError (IO.FS.readBinFile (String.ofList path.text))
  write path bytes := catchFileError (IO.FS.writeBinFile (String.ofList path.text) bytes)

/-- Tells the events that matter. -/
def tell (verbose : Bool) (events : List Event) : IO Unit :=
  for event in events do
    if verbose || event.level != .debug then
      IO.eprintln (String.ofList (event.level.name ++ ' ' :: event.message))

/-- Ends a program. -/
def finish (manual : CommandLine.Manual) (outcome : CommandLine.Outcome) : IO UInt32 := do
  IO.print (String.ofList (outcome.output manual))
  IO.eprint (String.ofList (outcome.report manual))
  return outcome.exitCode

/-- The program that expands templates. -/
def expandMain (arguments : List Text) : IO UInt32 := do
  let verbose := (Invocation.ofArguments arguments).toOption.any (·.verbose)
  let (events, outcome) ← ExpandCommand.perform arguments
  tell verbose events
  finish ExpandCommand.manual outcome

/-- The program that adds up benchmarks. -/
def totalsMain (arguments : List Text) : IO UInt32 := do
  finish TotalsCommand.manual (← TotalsCommand.perform arguments)

end AsmVariants

/-- The program that goes by the name under which it was called. -/
def main (arguments : List String) : IO UInt32 := do
  let texts := arguments.map String.toList
  let name := (← IO.appPath).fileName.getD ""
  if name = "zasm-bench-totals" then AsmVariants.totalsMain texts
  else AsmVariants.expandMain texts
