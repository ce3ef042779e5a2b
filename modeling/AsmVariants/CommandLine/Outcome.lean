import AsmVariants.CommandLine.Item

/-!
# `AsmVariants.CommandLine.Outcome`: how a program ends

A program ends with an exit code, a text on its output, and a text that reports what went wrong.
-/

set_option autoImplicit false

namespace AsmVariants.CommandLine

/-- How a program ends. -/
inductive Outcome where
  /-- It did no work. -/
  | refused (refusal : Refusal)
  /-- It did its work, and this is its output. -/
  | done (output : Text)
  /-- It could not do its work, and this is why. -/
  | failed (reason : Text)
  deriving DecidableEq

/-- The texts that a program shows instead of working. -/
structure Manual where
  help : Text
  version : Text
  /-- What it shows if it is called wrongly. -/
  usage : Text

namespace Outcome

/-- The exit code. -/
def exitCode : Outcome → UInt32
  | refused .usage => 2
  | refused .help | refused .version | done _ => 0
  | failed _ => 1

/-- What is shown on the output. -/
def output (manual : Manual) : Outcome → Text
  | refused .help => manual.help
  | refused .version => manual.version
  | done text => text
  | refused .usage | failed _ => []

/-- What is reported. A reason is set apart from other messages by a cross. -/
def report (manual : Manual) : Outcome → Text
  | refused .usage => manual.usage
  | failed reason => ['\u2717', ' '] ++ reason ++ ['\n']
  | refused .help | refused .version | done _ => []

end Outcome

end AsmVariants.CommandLine
