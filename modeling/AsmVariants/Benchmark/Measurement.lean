import AsmVariants.Benchmark.Wrapping
import AsmVariants.Text.DecimalDigit
import AsmVariants.Text.WordChar

/-!
# `AsmVariants.Benchmark.Measurement`: the measurements in a benchmark's output

A measurement is a line such as

    lambda/add_test         time:   [1.2001 µs 1.2034 µs 1.2071 µs]

The word before the slash names the machine. In the brackets stand a lower bound, the estimate
and an upper bound, each a number and its unit. A line is read from left to right, each word and
each number as far as it goes; the characters that may follow it never belong to it, so nothing
is missed by that. What comes behind the closing bracket does not matter.
-/

set_option autoImplicit false

namespace AsmVariants.Benchmark

/-- What a measurement tells. -/
structure Measurement where
  /-- The machine that was measured. -/
  machine : Text
  /-- The number of the estimate, as written. -/
  estimate : Text
  /-- The unit of the estimate, as written. -/
  unit : Text
  deriving DecidableEq

/-- The longest run of characters of a class at the start of a text, and the rest. The run may
not be empty. -/
def run? (test : Char → Bool) (t : Text) : Option (Text × Text) :=
  match t.span test with
  | ([], _) => none
  | (run, rest) => some (run, rest)

/-- A number at the start of a text, and the rest: digits, maybe with a point and digits behind
it. -/
def number? (t : Text) : Option (Text × Text) := do
  let (whole, rest) ← run? Text.isDecimalDigit t
  match rest with
  | '.' :: tail =>
    match run? Text.isDecimalDigit tail with
    | some (fraction, rest) => return (whole ++ '.' :: fraction, rest)
    | none => return (whole, '.' :: tail)
  | _ => return (whole, rest)

/-- The rest of a text behind one character of white space. -/
def afterBlank? : Text → Option Text
  | [] => none
  | c :: rest => if Text.isBlank c then some rest else none

/-- A number and its unit at the start of a text, with one blank between them, and the rest. -/
def quantity? (t : Text) : Option (Text × Text × Text) := do
  let (number, rest) ← number? t
  let (unit, rest) ← run? Text.isWordChar (← afterBlank? rest)
  return (number, unit, rest)

/-- The rest of a text behind a name: two words with a slash between them. The first word is
answered too. -/
def machine? (t : Text) : Option (Text × Text) := do
  let (machine, rest) ← run? Text.isWordChar t
  let (_, rest) ← run? Text.isWordChar (← ['/'].isPrefixOf? rest)
  return (machine, rest)

/-- The rest of a text behind the mark, with white space on both sides, and the opening
bracket. -/
def afterMark? (t : Text) : Option Text := do
  let (_, rest) ← run? Text.isBlank t
  let (_, rest) ← run? Text.isBlank (← timeMark.isPrefixOf? rest)
  ['['].isPrefixOf? rest

/-- The measurement on a line. -/
def Measurement.ofLine? (line : Text) : Option Measurement := do
  let (machine, rest) ← machine? line
  let (_, _, rest) ← quantity? (← afterMark? rest)
  let (estimate, unit, rest) ← quantity? (← afterBlank? rest)
  let (_, _, rest) ← quantity? (← afterBlank? rest)
  let _ ← [']'].isPrefixOf? rest
  return ⟨machine, estimate, unit⟩

/-- The measurements in a text, from the first line to the last. -/
def measurements (t : Text) : List Measurement :=
  ((unwrap t).splitLines.map Text.dropTerminator).filterMap Measurement.ofLine?

end AsmVariants.Benchmark
