import AsmVariants.Benchmark.Measurement
import AsmVariants.Proofs.Text.CharClass
import AsmVariants.Proofs.Text.Run

/-!
# `AsmVariants.Proofs.Benchmark.Measurement`: how a measurement is written

`Measurement.ofLine?` reads a line from left to right and takes each word and each number as far as
it goes. `Measures` says what such a line looks like, with no word on how it is read: a name, the
mark, and three quantities in brackets, each part as long as it likes.
`ofLine?_eq_some_iff_measures` says that the two agree. So nothing is missed by taking each part as
far as it goes, and a line that can be written as a measurement tells only one.

Each part of the reader has two lemmas. One starts from the part as it is written, with a rest
behind it, and the other from what was read.

* `run?_append` and `exists_of_run?`: a run of one class. It ends where the rest does not begin with
  the class (`Stops`), which is why the classes have to be apart
  (`AsmVariants.Proofs.Text.CharClass`).
* `number?_append` and `exists_of_number?`: a number. Its digits may go on behind a point, so the
  rest must begin neither with a digit nor with a point.
* `quantity?_append`, `machine?_append` and `afterMark?_append`, with their converses: the parts
  that are made up of these.
-/

set_option autoImplicit false

namespace AsmVariants.Proofs

open Benchmark
open Text (isBlank isDecimalDigit isWordChar)

/-! ### What a measurement looks like -/

/-- Decimal digits, maybe with a point and decimal digits behind it. -/
inductive IsNumber : Text → Prop
  | whole {digits : Text} (h : IsRun isDecimalDigit digits) : IsNumber digits
  | fraction {digits places : Text} (hdigits : IsRun isDecimalDigit digits)
      (hplaces : IsRun isDecimalDigit places) : IsNumber (digits ++ '.' :: places)

/-- A number and a unit with one character of white space between them. -/
inductive IsQuantity : Text → Text → Text → Prop
  | intro {number unit : Text} {blank : Char} (hnumber : IsNumber number) (hblank : isBlank blank)
      (hunit : IsRun isWordChar unit) : IsQuantity number unit (number ++ blank :: unit)

/-- A line that tells a measurement. Behind the name and the mark stand three quantities in
brackets, with one character of white space between each two. The second one is the estimate. -/
inductive Measures (line : Text) (m : Measurement) : Prop
  | intro {bench indent padding lower lowerNumber lowerUnit estimate upper upperNumber upperUnit
      rest : Text} {first second : Char}
      (hmachine : IsRun isWordChar m.machine) (hbench : IsRun isWordChar bench)
      (hindent : IsRun isBlank indent) (hpadding : IsRun isBlank padding)
      (hlower : IsQuantity lowerNumber lowerUnit lower) (hfirst : isBlank first)
      (hestimate : IsQuantity m.estimate m.unit estimate) (hsecond : isBlank second)
      (hupper : IsQuantity upperNumber upperUnit upper)
      (hline : line = m.machine ++ '/' :: (bench ++ (indent ++ ("time:".toList ++ (padding ++
        '[' :: (lower ++ first :: (estimate ++ second :: (upper ++ ']' :: rest)))))))) :
      Measures line m

/-! ### Runs -/

section

variable {test : Char → Bool} {run t rest : Text}

/-- A run is read to its end, if what follows does not go on with it. -/
theorem run?_append (h : IsRun test run) (hrest : Stops test rest) :
    run? test (run ++ rest) = some (run, rest) := by
  have hspan : (run ++ rest).span test = (run, rest) := span_append h.all hrest
  cases run with
  | nil => exact absurd rfl h.ne_nil
  | cons c run => rw [run?, hspan]

/-- What is read as a run is one, and it stands at the start of the text. -/
theorem exists_of_run? (h : run? test t = some (run, rest)) :
    t = run ++ rest ∧ IsRun test run := by
  rw [run?, List.span_eq_takeWhile_dropWhile] at h
  have hall : ∀ c ∈ t.takeWhile test, test c := fun c => List.mem_takeWhile_imp
  have hjoin : t.takeWhile test ++ t.dropWhile test = t := List.takeWhile_append_dropWhile
  cases htake : t.takeWhile test with
  | nil => rw [htake] at h; exact nomatch h
  | cons c taken =>
    rw [htake] at h hall hjoin
    obtain ⟨rfl, rfl⟩ := Prod.mk.inj (Option.some.inj h)
    exact ⟨hjoin.symm, List.cons_ne_nil c taken, hall⟩

end

/-! ### Numbers -/

/-- A number is read to its end. Behind the digits there must be neither another digit nor a point,
which could begin a fraction. -/
theorem number?_append {number rest : Text} (h : IsNumber number)
    (hdigit : Stops isDecimalDigit rest) (hpoint : rest.head? ≠ some '.') :
    number? (number ++ rest) = some (number, rest) := by
  cases h with
  | whole hdigits =>
    rw [number?, run?_append hdigits hdigit]
    simp only [Option.bind_eq_bind, Option.bind_some]
    -- Only a point could make it go on.
    split
    · exact absurd rfl hpoint
    · rfl
  | @fraction digits places hdigits hplaces =>
    have hstop : Stops isDecimalDigit ('.' :: (places ++ rest)) := stops_cons (by decide)
    -- The digits end at the point, and those behind it where the number ends.
    rw [List.append_assoc, List.cons_append, number?, run?_append hdigits hstop]
    simp only [Option.bind_eq_bind, Option.bind_some, run?_append hplaces hdigit]
    rfl

/-- What is read as a number is written as one. The fraction is taken if there is one, and given up
if no digit follows the point. -/
theorem exists_of_number? {t number rest : Text} (h : number? t = some (number, rest)) :
    t = number ++ rest ∧ IsNumber number := by
  rw [number?, Option.bind_eq_bind, Option.bind_eq_some_iff] at h
  obtain ⟨⟨digits, behind⟩, hdigits, h⟩ := h
  obtain ⟨rfl, isRun⟩ := exists_of_run? hdigits
  dsimp only at h
  split at h
  · next tail =>
    split at h
    · next places behind' hplaces =>
      obtain ⟨rfl, isRun'⟩ := exists_of_run? hplaces
      obtain ⟨rfl, rfl⟩ := Prod.mk.inj (Option.some.inj h)
      exact ⟨by simp, .fraction isRun isRun'⟩
    · -- A point with no digit behind it is left to the rest.
      obtain ⟨rfl, rfl⟩ := Prod.mk.inj (Option.some.inj h)
      exact ⟨rfl, .whole isRun⟩
  · obtain ⟨rfl, rfl⟩ := Prod.mk.inj (Option.some.inj h)
    exact ⟨rfl, .whole isRun⟩

/-! ### Parts of a line

Each of these readers is a chain of others, so its two lemmas follow from theirs. The conditions on
what may follow a part are the ones that make its last run end there. -/

section

variable {t rest : Text} {blank : Char}

/-- One blank is passed. -/
theorem afterBlank?_cons (h : isBlank blank) : afterBlank? (blank :: rest) = some rest := by
  rw [afterBlank?, if_pos h]

/-- What is passed is one blank. -/
theorem exists_of_afterBlank? (h : afterBlank? t = some rest) :
    ∃ blank, t = blank :: rest ∧ isBlank blank := by
  cases t with
  | nil => cases h
  | cons c t =>
    rw [afterBlank?] at h
    split at h
    · next hc => exact ⟨c, by rw [Option.some.inj h], hc⟩
    · cases h

/-- A quantity is read to the end of its unit, if what follows does not go on with the word. -/
theorem quantity?_append {quantity number unit : Text} (h : IsQuantity number unit quantity)
    (hrest : Stops isWordChar rest) : quantity? (quantity ++ rest) = some (number, unit, rest) := by
  cases h with
  | @intro blank hnumber hblank hunit =>
    have hdigit : Stops isDecimalDigit (blank :: (unit ++ rest)) :=
      stops_cons (isDecimalDigit_of_isBlank hblank)
    have hpoint : (blank :: (unit ++ rest)).head? ≠ some '.' := by
      rintro ⟨⟩
      exact absurd hblank (by decide)
    rw [List.append_assoc, List.cons_append, quantity?, number?_append hnumber hdigit hpoint]
    simp only [Option.bind_eq_bind, Option.bind_some, afterBlank?_cons hblank,
      run?_append hunit hrest]
    rfl

/-- What is read as a quantity is a number, a blank and a unit. -/
theorem exists_of_quantity? {number unit : Text} (h : quantity? t = some (number, unit, rest)) :
    ∃ quantity, t = quantity ++ rest ∧ IsQuantity number unit quantity := by
  simp only [quantity?, Option.bind_eq_bind, Option.bind_eq_some_iff] at h
  obtain ⟨⟨number', behind⟩, hnumber, behind', hblank, ⟨unit', rest'⟩, hunit, h⟩ := h
  obtain ⟨rfl, isNumber⟩ := exists_of_number? hnumber
  obtain ⟨blank, rfl, isBlank⟩ := exists_of_afterBlank? hblank
  obtain ⟨rfl, isRun⟩ := exists_of_run? hunit
  cases h
  exact ⟨_, by simp, .intro isNumber isBlank isRun⟩

/-- The machine of a name is read, and the benchmark behind the slash is passed, if what follows
does not go on with the word. -/
theorem machine?_append {machine bench : Text} (hmachine : IsRun isWordChar machine)
    (hbench : IsRun isWordChar bench) (hrest : Stops isWordChar rest) :
    machine? (machine ++ '/' :: (bench ++ rest)) = some (machine, rest) := by
  have hslash : Stops isWordChar ('/' :: (bench ++ rest)) := stops_cons (by decide)
  have hprefix : ['/'].isPrefixOf? ('/' :: (bench ++ rest)) = some (bench ++ rest) := rfl
  rw [machine?, run?_append hmachine hslash]
  simp only [Option.bind_eq_bind, Option.bind_some, hprefix, run?_append hbench hrest]
  rfl

/-- What is read as a machine stands in front of a slash and a benchmark. -/
theorem exists_of_machine? {machine : Text} (h : machine? t = some (machine, rest)) :
    ∃ bench, t = machine ++ '/' :: (bench ++ rest) ∧
      IsRun isWordChar machine ∧ IsRun isWordChar bench := by
  simp only [machine?, Option.bind_eq_bind, Option.bind_eq_some_iff,
    List.isPrefixOf?_eq_some_iff_append_eq] at h
  obtain ⟨⟨machine', behind⟩, hmachine, behind', rfl, ⟨bench, rest'⟩, hbench, h⟩ := h
  obtain ⟨rfl, isRun⟩ := exists_of_run? hmachine
  obtain ⟨rfl, isRun'⟩ := exists_of_run? hbench
  cases h
  exact ⟨bench, rfl, isRun, isRun'⟩

/-- The mark is passed with the white space on both sides and the bracket behind it. -/
theorem afterMark?_append {indent padding : Text} (hindent : IsRun isBlank indent)
    (hpadding : IsRun isBlank padding) :
    afterMark? (indent ++ ("time:".toList ++ (padding ++ '[' :: rest))) = some rest := by
  have hmark : Stops isBlank ("time:".toList ++ (padding ++ '[' :: rest)) := stops_cons (by decide)
  have hbracket : Stops isBlank ('[' :: rest) := stops_cons (by decide)
  have hprefix : timeMark.isPrefixOf? ("time:".toList ++ (padding ++ '[' :: rest)) =
      some (padding ++ '[' :: rest) := List.isPrefixOf?_eq_some_iff_append_eq.mpr rfl
  rw [afterMark?, run?_append hindent hmark]
  simp only [Option.bind_eq_bind, Option.bind_some, hprefix, run?_append hpadding hbracket]
  rfl

/-- What is passed as the mark has white space on both sides and a bracket behind it. -/
theorem exists_of_afterMark? (h : afterMark? t = some rest) :
    ∃ indent padding, t = indent ++ ("time:".toList ++ (padding ++ '[' :: rest)) ∧
      IsRun isBlank indent ∧ IsRun isBlank padding := by
  simp only [afterMark?, Option.bind_eq_bind, Option.bind_eq_some_iff,
    List.isPrefixOf?_eq_some_iff_append_eq] at h
  obtain ⟨⟨indent, behind⟩, hindent, behind', rfl, ⟨padding, behind''⟩, hpadding, rfl⟩ := h
  obtain ⟨rfl, isRun⟩ := exists_of_run? hindent
  obtain ⟨rfl, isRun'⟩ := exists_of_run? hpadding
  exact ⟨indent, padding, rfl, isRun, isRun'⟩

end

/-! ### Lines

`Measures` is put together in one direction and taken apart in the other. That a line has one
measurement follows, since the reader is a function. -/

/-- A line that is written as a measurement is read as the measurement. At each part, what follows
begins with a character of another class, so the reader takes the part as a whole. -/
theorem ofLine?_of_measures {line : Text} {m : Measurement} (h : Measures line m) :
    Measurement.ofLine? line = some m := by
  cases h with
  | @intro bench indent padding lower lowerNumber lowerUnit estimate upper upperNumber upperUnit
      rest first second hmachine hbench hindent hpadding hlower hfirst hestimate hsecond hupper
      hline =>
    subst hline
    -- Words end at white space or at the bracket, whatever comes behind these.
    have hname (tail : Text) : Stops isWordChar (indent ++ tail) :=
      hindent.stops_append fun _ => isWordChar_of_isBlank
    have hbracket : Stops isWordChar (']' :: rest) := stops_cons (by decide)
    have hprefix : [']'].isPrefixOf? (']' :: rest) = some rest := rfl
    rw [Measurement.ofLine?, machine?_append hmachine hbench (hname _)]
    simp only [Option.bind_eq_bind, Option.bind_some, afterMark?_append hindent hpadding,
      quantity?_append hlower (stops_cons (isWordChar_of_isBlank hfirst)), afterBlank?_cons hfirst,
      quantity?_append hestimate (stops_cons (isWordChar_of_isBlank hsecond)),
      afterBlank?_cons hsecond, quantity?_append hupper hbracket, hprefix]
    rfl

/-- What is read off a line is written in it as the grammar says. The parts are put together in the
order in which the reader took them. -/
theorem measures_of_ofLine? {line : Text} {m : Measurement}
    (h : Measurement.ofLine? line = some m) : Measures line m := by
  simp only [Measurement.ofLine?, Option.bind_eq_bind, Option.bind_eq_some_iff,
    List.isPrefixOf?_eq_some_iff_append_eq] at h
  obtain ⟨⟨machine, behindName⟩, hname, behindMark, hmark, ⟨_, _, behindLower⟩, hlower,
    behindFirst, hfirst, ⟨estimate, unit, behindEstimate⟩, hestimate, behindSecond, hsecond,
    ⟨_, _, behindUpper⟩, hupper, rest, rfl, h⟩ := h
  obtain ⟨bench, rfl, isMachine, isBench⟩ := exists_of_machine? hname
  obtain ⟨indent, padding, rfl, isIndent, isPadding⟩ := exists_of_afterMark? hmark
  obtain ⟨lower, rfl, isLower⟩ := exists_of_quantity? hlower
  obtain ⟨first, rfl, isFirst⟩ := exists_of_afterBlank? hfirst
  obtain ⟨middle, rfl, isEstimate⟩ := exists_of_quantity? hestimate
  obtain ⟨second, rfl, isSecond⟩ := exists_of_afterBlank? hsecond
  obtain ⟨upper, rfl, isUpper⟩ := exists_of_quantity? hupper
  -- The parts were cut off one after another, so they make up the line.
  cases h
  exact .intro isMachine isBench isIndent isPadding isLower isFirst isEstimate isSecond isUpper rfl

/-- A line is read as a measurement exactly if it is written as one, and whichever way it is taken
apart, it tells the same machine, estimate and unit. -/
theorem ofLine?_eq_some_iff_measures (line : Text) :
    (∀ m, Measurement.ofLine? line = some m ↔ Measures line m) ∧
    (∀ m m', Measures line m → Measures line m' → m = m') := by
  refine ⟨fun m => ⟨measures_of_ofLine?, ofLine?_of_measures⟩, fun m m' h h' => ?_⟩
  have hread : some m = some m' := (ofLine?_of_measures h).symm.trans (ofLine?_of_measures h')
  exact Option.some.inj hread

/-- The digits of any script make a number, a unit may look like one, and behind the bracket may
stand what could end another measurement. -/
theorem ofLine?_eq_some_iff_measures_mixedLine :
    let line : Text := "fast/add_1 \ttime:  [1 s1\t\u0661.5 2 3.0 ms] 9 ms]".toList
    let m : Measurement := ⟨"fast".toList, "\u0661.5".toList, "2".toList⟩
    Measurement.ofLine? line = some m ∧ ∀ m', Measures line m' → m' = m := by
  intro line m
  have hlower : IsQuantity "1".toList "s1".toList ("1".toList ++ ' ' :: "s1".toList) :=
    .intro (.whole (by decide +kernel)) (by decide) (by decide +kernel)
  have hnumber : IsNumber (['\u0661'] ++ '.' :: ['5']) :=
    .fraction (by decide +kernel) (by decide +kernel)
  have hestimate : IsQuantity m.estimate m.unit (m.estimate ++ ' ' :: m.unit) :=
    .intro hnumber (by decide) (by decide +kernel)
  have hnumber' : IsNumber (['3'] ++ '.' :: ['0']) :=
    .fraction (by decide +kernel) (by decide +kernel)
  have hupper : IsQuantity "3.0".toList "ms".toList ("3.0".toList ++ ' ' :: "ms".toList) :=
    .intro hnumber' (by decide) (by decide +kernel)
  have hline : line = m.machine ++ '/' :: ("add_1".toList ++ (" \t".toList ++ ("time:".toList ++
      ("  ".toList ++ '[' :: (("1".toList ++ ' ' :: "s1".toList) ++ '\t' ::
        ((m.estimate ++ ' ' :: m.unit) ++ ' ' ::
          (("3.0".toList ++ ' ' :: "ms".toList) ++ ']' :: " 9 ms]".toList))))))) := by
    decide +kernel
  have hmeasures : Measures line m :=
    .intro (by decide +kernel) (by decide +kernel) (by decide +kernel) (by decide +kernel)
      hlower (by decide) hestimate (by decide) hupper hline
  have hiff := ofLine?_eq_some_iff_measures line
  exact ⟨(hiff.1 m).mpr hmeasures, fun m' h' => hiff.2 m' m h' hmeasures⟩

end AsmVariants.Proofs
