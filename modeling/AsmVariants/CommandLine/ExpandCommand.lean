import AsmVariants.CommandLine.Invocation
import AsmVariants.CommandLine.Outcome
import AsmVariants.Config.Storage
import AsmVariants.Run

/-!
# `AsmVariants.CommandLine.ExpandCommand`: the program that expands templates

The program reads its command line, loads the configuration if one is named, lays the options
over it, and runs. Its output has one line for each variant: the path, and behind it in
parentheses the choices, if there are any.
-/

set_option autoImplicit false

namespace AsmVariants.ExpandCommand

open CommandLine (Manual Outcome)

/-- The texts that the program shows instead of working. -/
def manual : Manual where
  version := "zasm-expand 0.1.0\n".toList
  usage :=
    ("Usage: zasm-expand [OPTIONS] <TEMPLATE>\n\n" ++
      "For more information, try '--help'.\n").toList
  help :=
    ("Writes one .zasm file per combination of annotated placeholder values\n\n" ++
      "Usage: zasm-expand [OPTIONS] <TEMPLATE>\n\n" ++
      "Arguments:\n" ++
      "  <TEMPLATE>  Template file to expand\n\n" ++
      "Options:\n" ++
      "      --order <ORDER>                Placeholder processing order\n" ++
      "      --max-variants <MAX_VARIANTS>  Fail instead of producing more variants\n" ++
      "      --dry-run                      Print the files without writing them\n" ++
      "  -c, --config <CONFIG>              JSON file with expansion settings\n" ++
      "  -v, --verbose                      Enable debug logging\n" ++
      "  -h, --help                         Print help\n" ++
      "  -V, --version                      Print version\n").toList

/-- A choice as it is shown. -/
def choiceText (choice : Choice) : Text := choice.placeholder.token ++ '=' :: choice.value

/-- An output as it is shown. -/
def outputText (output : Output) : Text :=
  if output.choices = [] then output.path.text
  else
    output.path.text ++ [' ', '('] ++ [' '].intercalate (output.choices.map choiceText) ++ [')']

/-- A line for each output. -/
def reportText (report : RunReport) : Text :=
  report.outputs.flatMap fun output => outputText output ++ ['\n']

/-- A message and the error of the file system behind it, if there is one. -/
def withCause (message : Text) (cause : Option FileError) : Text :=
  message ++ cause.elim [] fun error => [':', ' '] ++ error.message

/-- Why the configuration cannot be used. -/
def configReason (error : ConfigError) : Text := withCause error.message error.cause?

/-- Why the template is not expanded. -/
def runReason (template : Path) (error : RunError) : Text :=
  "Failed to expand ".toList ++ template.text ++ [':', ' '] ++
    withCause error.message error.cause?

section

variable {m : Type → Type} [Monad m] [FileAccess m]

/-- The configuration that the options are laid over. -/
def baseConfig (invocation : Invocation) : m (Except ConfigError Config) :=
  match invocation.config with
  | none => return .ok {}
  | some path => Config.load path

/-- The settings of the run, if they can be used. -/
def settings (invocation : Invocation) (base : Except ConfigError Config) :
    Except ConfigError Config := do
  let config := invocation.applyTo (← base)
  config.validate
  return config

/-- Does what a command line asks for. The answer has the events and the end. -/
def invoke (invocation : Invocation) : m (List Event × Outcome) := do
  let before := invocation.config.toList.map Event.configured
  match settings invocation (← baseConfig invocation) with
  | .error error => return (before, .failed (configReason error))
  | .ok config =>
    match ← run config invocation.template with
    | (events, .error error) =>
      return (before ++ events, .failed (runReason invocation.template error))
    | (events, .ok report) =>
      let after := [Event.finished report.outputs.length report.written]
      return (before ++ events ++ after, .done (reportText report))

/-- Does what a command line asks for, if it can be read. -/
def perform (arguments : List Text) : m (List Event × Outcome) :=
  match Invocation.ofArguments arguments with
  | .error refusal => return ([], .refused refusal)
  | .ok invocation => invoke invocation

end

end AsmVariants.ExpandCommand
