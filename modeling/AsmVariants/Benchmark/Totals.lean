import AsmVariants.Benchmark.Measurement
import AsmVariants.Decimal.Binary64
import AsmVariants.Files.Access

/-!
# `AsmVariants.Benchmark.Totals`: what each machine took in all

The estimates of a benchmark's output are added up by machine, in milliseconds. Machines stand in
the order in which they were first seen. The first estimate that cannot be read ends the sum.
-/

set_option autoImplicit false

namespace AsmVariants.Benchmark

/-- Why a benchmark's output cannot be added up. -/
inductive TotalsError where
  /-- An estimate is given in a unit of time that is not known. -/
  | unknownUnit (unit : Text)
  /-- The number of an estimate has digits other than `0` to `9`. -/
  | invalidValue (value : Text)
  /-- The file with the output cannot be read. -/
  | unreadable (path : Path) (cause : FileError)
  deriving DecidableEq

/-- The wording of the error. -/
def TotalsError.message : TotalsError → Text
  | unknownUnit unit => "Unknown time unit: ".toList ++ unit
  | invalidValue value => "Invalid time value: ".toList ++ value
  | unreadable path cause =>
    "Failed to read ".toList ++ path.text ++ ": ".toList ++ cause.message

/-- The units of time. -/
inductive TimeUnit where
  /-- A millionth of a millisecond. -/
  | nanosecond
  /-- A thousandth of a millisecond. -/
  | microsecond
  /-- The unit of all totals. -/
  | millisecond
  /-- A thousand milliseconds. -/
  | second
  deriving DecidableEq

namespace TimeUnit

/-- The unit with a given name. A microsecond is written with the micro sign or with a `u`. -/
def ofName? (name : Text) : Option TimeUnit :=
  if name = "ns".toList then some nanosecond
  else if name = "\u00B5s".toList ∨ name = "us".toList then some microsecond
  else if name = "ms".toList then some millisecond
  else if name = "s".toList then some second
  else none

/-- A number of these units in milliseconds. -/
def toMillis (unit : TimeUnit) (value : Float) : Float :=
  match unit with
  | nanosecond => value / Binary64.ofRatio 1000000 1
  | microsecond => value / Binary64.ofRatio 1000 1
  | millisecond => value
  | second => value * Binary64.ofRatio 1000 1

end TimeUnit

/-- A number of units in milliseconds, by the name of the unit. -/
def toMillis (value : Float) (unit : Text) : Except TotalsError Float :=
  match TimeUnit.ofName? unit with
  | none => .error (.unknownUnit unit)
  | some known => .ok (known.toMillis value)

/-- The estimate of a measurement in milliseconds. -/
def Measurement.millis (measurement : Measurement) : Except TotalsError Float :=
  match Text.toFloat? measurement.estimate with
  | none => .error (.invalidValue measurement.estimate)
  | some value => toMillis value measurement.unit

/-- What each machine took in all. -/
structure Totals where
  /-- The machines with their milliseconds, in the order in which they were first seen. -/
  entries : List (Text × Float)

namespace Totals

/-- No machine at all. -/
def empty : Totals := ⟨[]⟩

/-- The entries with some milliseconds more for a machine. -/
def addEntry (machine : Text) (millis : Float) : List (Text × Float) → List (Text × Float)
  | [] => [(machine, millis)]
  | (name, total) :: rest =>
    if name = machine then (name, total + millis) :: rest
    else (name, total) :: addEntry machine millis rest

/-- The totals with some milliseconds more for a machine. -/
def add (totals : Totals) (machine : Text) (millis : Float) : Totals :=
  ⟨addEntry machine millis totals.entries⟩

/-- What a machine took in all. -/
def get? (totals : Totals) (machine : Text) : Option Float := totals.entries.lookup machine

/-- The totals with one measurement more. -/
def count (totals : Totals) (measurement : Measurement) : Except TotalsError Totals := do
  return totals.add measurement.machine (← measurement.millis)

/-- The totals of a benchmark's output. -/
def ofText (t : Text) : Except TotalsError Totals := (measurements t).foldlM count empty

/-- The machine that the others are compared with. -/
def subject : Text := "lambda".toList

/-- The machines that are compared with the subject, in the order of the summary. -/
def baselines : List Text := ["legacy".toList, "fast".toList]

/-- The line of the summary that tells the total of a machine. -/
def totalLine (machine : Text) (total : Float) : Text :=
  "Total ".toList ++ machine ++ " time: ".toList ++ Text.ofFloat 3 total ++ " ms\n".toList

/-- The line of the summary that compares the subject with another machine. -/
def ratioLine (subjectTotal : Float) (baseline : Text) (total : Float) : Text :=
  subject ++ "_vm took x".toList ++ Text.ofFloat 1 (subjectTotal / total) ++
    " more than ".toList ++ baseline ++ "_vm\n".toList

/-- The lines of the summary that compare the subject with the others. -/
def ratioLines (totals : Totals) (subjectTotal : Float) : Text :=
  baselines.flatMap fun baseline =>
    (totals.get? baseline).elim [] (ratioLine subjectTotal baseline)

/-- The summary: a line for each machine, and if the subject was measured, an empty line and
the comparisons. -/
def summary (totals : Totals) : Text :=
  (totals.entries.flatMap fun (machine, total) => totalLine machine total) ++
    (totals.get? subject).elim [] fun subjectTotal => '\n' :: totals.ratioLines subjectTotal

/-- The totals of a benchmark's output in a file. -/
def ofFile {m : Type → Type} [Monad m] [FileAccess m] (path : Path) :
    m (Except TotalsError Totals) := do
  match ← readText path with
  | .error cause => return .error (.unreadable path cause)
  | .ok text => return ofText text

end Totals

end AsmVariants.Benchmark
