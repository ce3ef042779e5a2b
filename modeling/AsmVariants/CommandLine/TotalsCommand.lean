import AsmVariants.Benchmark.Totals
import AsmVariants.CommandLine.Outcome

/-!
# `AsmVariants.CommandLine.TotalsCommand`: the program that adds up benchmarks

The program is called with the name of one file, the output of a benchmark, and shows the summary
of its totals.
-/

set_option autoImplicit false

namespace AsmVariants.TotalsCommand

open CommandLine (Item Manual Options Outcome Refusal)

/-- The texts that the program shows instead of working. -/
def manual : Manual where
  version := "zasm-bench-totals 0.1.0\n".toList
  usage :=
    ("Usage: zasm-bench-totals <REPORT>\n\n" ++
      "For more information, try '--help'.\n").toList
  help :=
    ("Sum benchmark estimates per machine\n\n" ++
      "Usage: zasm-bench-totals <REPORT>\n\n" ++
      "Arguments:\n" ++
      "  <REPORT>  Benchmark output to summarize\n\n" ++
      "Options:\n" ++
      "  -h, --help     Print help\n" ++
      "  -V, --version  Print version\n").toList

/-- The options of the program: each of them asks for something else than work. -/
def options : Options Refusal where
  long? name :=
    if name = "help".toList then some .help
    else if name = "version".toList then some .version
    else none
  short? c := if c = 'h' then some .help else if c = 'V' then some .version else none
  takesValue _ := false

/-- Takes an item, when the file may already be known. -/
def take (file : Option Path) : Item Refusal → Except Refusal (Option Path)
  | .flag refusal => .error refusal
  | .positional value =>
    if file.isSome || value.isEmpty then .error .usage else .ok (some ⟨value⟩)
  | .option .. | .malformed => .error .usage

/-- The file that a command line names. -/
def ofArguments (arguments : List Text) : Except Refusal Path := do
  match ← (options.items arguments).foldlM take none with
  | none => .error .usage
  | some path => .ok path

section

variable {m : Type → Type} [Monad m] [FileAccess m]

/-- Does what a command line asks for. -/
def perform (arguments : List Text) : m Outcome := do
  match ofArguments arguments with
  | .error refusal => return .refused refusal
  | .ok path =>
    match ← Benchmark.Totals.ofFile path with
    | .error error => return .failed error.message
    | .ok totals => return .done totals.summary

end

end AsmVariants.TotalsCommand
