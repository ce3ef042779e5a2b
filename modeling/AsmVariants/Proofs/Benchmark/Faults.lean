import AsmVariants.Proofs.Benchmark.Measurement
import AsmVariants.Proofs.Benchmark.Totals
import Mathlib.Tactic.ByContra

/-!
# `AsmVariants.Proofs.Benchmark.Faults`: which estimate ends the sum

A measurement may have digits of any script and any word as a unit, so an estimate can be written
as it should and still not count. `Sound` says which estimates count, by the characters of the
number and the name of the unit. `ofText_reports_first_fault` says that the totals of a report exist
if all its estimates do, and that otherwise the first one that does not is reported.

* `Captures` is what the lines of a report tell, by `Measures` alone.
* `millis_of_sound` and `millis_of_not_sound` settle a single measurement. They rest on
  `isSome_toFloat?_iff`, which needs that the estimate is written as a number at all.
* `foldlM_count_eq_ok_iff` and `foldlM_count_eq_error` settle a list of them.
* `FirstFault` says which error a list of measurements leads to. By `foldlM_count_eq_error_iff` it
  is the error of the sum, and the totals that the sum starts from do not come into it.
-/

set_option autoImplicit false

namespace AsmVariants.Proofs

open Benchmark
open Text (isDecimalDigit)

/-! ### What is asked of an estimate -/

/-- A text of the digits `0` to `9` and at most one point. -/
structure Plain (t : Text) : Prop where
  all : ∀ c ∈ t, c.isDigit ∨ c = '.'
  count_le_one : t.count '.' ≤ 1

/-- Whether a text is plain is checked character by character. -/
instance (t : Text) : Decidable (Plain t) :=
  decidable_of_iff ((t.all fun c => c.isDigit || c == '.') ∧ t.count '.' ≤ 1)
    ⟨fun h => ⟨by simpa using h.1, h.2⟩, fun h => ⟨by simpa using h.all, h.count_le_one⟩⟩

/-- The text has a digit that is none of `0` to `9`. -/
def hasOtherDigit (t : Text) : Bool := t.any fun c => isDecimalDigit c && !c.isDigit

/-- The names of the units of time. -/
def unitNames : List Text := ["ns", "\u00B5s", "us", "ms", "s"].map String.toList

/-- An estimate that counts. -/
structure Sound (m : Measurement) : Prop where
  plain : Plain m.estimate
  known : m.unit ∈ unitNames

/-- Whether an estimate counts is read off its number and its unit, without converting it. -/
instance (m : Measurement) : Decidable (Sound m) :=
  decidable_of_iff (Plain m.estimate ∧ m.unit ∈ unitNames)
    ⟨fun h => ⟨h.1, h.2⟩, fun h => ⟨h.plain, h.known⟩⟩

/-- What is reported of an estimate that does not count. The number comes before the unit. -/
def fault (m : Measurement) : TotalsError :=
  if hasOtherDigit m.estimate then .invalidValue m.estimate else .unknownUnit m.unit

/-! ### What a report tells -/

/-- The lines of a report, when the wrapped ones are joined. -/
def joinedLines (t : Text) : List Text := (unwrap t).splitLines.map Text.dropTerminator

/-- The lines tell these measurements, in this order. Lines of any other kind may stand between
them. -/
inductive Captures : List Text → List Measurement → Prop
  | nil : Captures [] []
  | measured {line : Text} {m : Measurement} {lines : List Text} {ms : List Measurement}
      (h : Measures line m) (hrest : Captures lines ms) : Captures (line :: lines) (m :: ms)
  | other {line : Text} {lines : List Text} {ms : List Measurement}
      (h : ∀ m, ¬ Measures line m) (hrest : Captures lines ms) : Captures (line :: lines) ms

/-- What the reader finds on the lines is what they tell by the grammar. -/
theorem captures_filterMap (lines : List Text) :
    Captures lines (lines.filterMap Measurement.ofLine?) := by
  induction lines with
  | nil => exact .nil
  | cons line lines ih =>
    cases hline : Measurement.ofLine? line with
    | none =>
      rw [List.filterMap_cons_none hline]
      refine .other (fun m h => ?_) ih
      exact nomatch hline.symm.trans (ofLine?_of_measures h)
    | some m =>
      rw [List.filterMap_cons_some hline]
      exact .measured (measures_of_ofLine? hline) ih

/-- The lines tell nothing else than what the reader finds. Together with the converse, a report
tells one list of measurements. -/
theorem Captures.eq_filterMap {lines : List Text} {ms : List Measurement} (h : Captures lines ms) :
    ms = lines.filterMap Measurement.ofLine? := by
  induction h with
  | nil => rfl
  | measured hline _ ih => rw [List.filterMap_cons_some (ofLine?_of_measures hline), ih]
  | @other line _ _ hline _ ih =>
    have hnone : Measurement.ofLine? line = none :=
      Option.eq_none_iff_forall_ne_some.mpr fun m h => hline m (measures_of_ofLine? h)
    rw [List.filterMap_cons_none hnone, ih]

/-- The measurements of a report are those that its lines tell by the grammar alone, so a statement
about them need not mention the reader. -/
theorem captures_joinedLines_iff {t : Text} {ms : List Measurement} :
    Captures (joinedLines t) ms ↔ ms = measurements t := by
  constructor
  · intro h
    exact h.eq_filterMap
  · rintro rfl
    exact captures_filterMap _

/-- The estimate of a measurement was found on a line, so it is written as a number. Without this
the digits of an estimate say nothing on whether it can be read. -/
theorem isNumber_of_mem_measurements {t : Text} {m : Measurement} (h : m ∈ measurements t) :
    IsNumber m.estimate := by
  rw [measurements, List.mem_filterMap] at h
  obtain ⟨line, -, hline⟩ := h
  cases measures_of_ofLine? hline with
  | intro _ _ _ _ _ _ hestimate =>
    cases hestimate with
    | intro hnumber => exact hnumber

/-! ### Numbers

The reader of numbers knows the digits `0` to `9` and one point. So a text that is written as a
number is read exactly if it is plain, and since a number has one point at most, that comes down to
its digits (`plain_iff`). -/

section

variable {t digits places : Text}

/-- A point is no digit of any script. -/
theorem IsRun.point_notMem (h : IsRun isDecimalDigit t) : '.' ∉ t := by
  intro hmem
  exact absurd (h.all '.' hmem) (by decide)

/-- A number has digits of some script, and maybe a point. -/
theorem IsNumber.isDecimalDigit_or_point (h : IsNumber t) :
    ∀ c ∈ t, isDecimalDigit c ∨ c = '.' := by
  intro c hc
  cases h with
  | whole hdigits => exact .inl (hdigits.all c hc)
  | fraction hdigits hplaces =>
    rw [List.mem_append, List.mem_cons] at hc
    rcases hc with hc | hc | hc
    · exact .inl (hdigits.all c hc)
    · exact .inr hc
    · exact .inl (hplaces.all c hc)

/-- A number has its point between the digits of two runs, so it has no second one. -/
theorem IsNumber.count_point_le_one (h : IsNumber t) : t.count '.' ≤ 1 := by
  cases h with
  | whole hdigits =>
    rw [List.count_eq_zero_of_not_mem hdigits.point_notMem]
    omega
  | fraction hdigits hplaces =>
    rw [List.count_append, List.count_cons_self,
      List.count_eq_zero_of_not_mem hdigits.point_notMem,
      List.count_eq_zero_of_not_mem hplaces.point_notMem]

/-- A number is plain where its digits are. -/
theorem plain_iff (h : IsNumber t) : Plain t ↔ ∀ c ∈ t, isDecimalDigit c → c.isDigit := by
  constructor
  · intro hplain c hc hdigit
    rcases hplain.all c hc with hascii | rfl
    · exact hascii
    · exact absurd hdigit (by decide)
  · intro hascii
    refine ⟨fun c hc => ?_, h.count_point_le_one⟩
    exact (h.isDecimalDigit_or_point c hc).imp_left (hascii c hc)

/-- The digit that keeps a number from being read is found by looking for it. This is how the fault
of a measurement tells the number from the unit. -/
theorem hasOtherDigit_eq_false_iff (h : IsNumber t) : hasOtherDigit t = false ↔ Plain t := by
  rw [plain_iff h, hasOtherDigit, List.any_eq_false]
  simp

/-- Digits are read as a natural number if there are any and they are all among `0` to `9`. -/
theorem isSome_toNat?_iff : (Text.toNat? t).isSome ↔ t ≠ [] ∧ ∀ c ∈ t, c.isDigit := by
  rw [Text.toNat?, Option.isSome_ite, List.all_eq_true]

/-- A run of decimal digits is read exactly if these are the digits `0` to `9`. -/
theorem isSome_toNat?_of_isRun (h : IsRun isDecimalDigit t) :
    (Text.toNat? t).isSome ↔ ∀ c ∈ t, isDecimalDigit c → c.isDigit := by
  rw [isSome_toNat?_iff]
  constructor
  · intro hread c hc _
    exact hread.2 c hc
  · intro hascii
    exact ⟨h.ne_nil, fun c hc => hascii c hc (h.all c hc)⟩

/-- A number without a point is read as its digits are. -/
theorem isSome_toFloat?_of_notMem (h : '.' ∉ t) :
    (Text.toFloat? t).isSome ↔ (Text.toNat? t).isSome := by
  have hspan : (t ++ []).span (· != '.') = (t, []) :=
    span_append (bne_of_notMem h) fun _ hc => nomatch hc
  rw [List.append_nil] at hspan
  rw [Text.toFloat?, hspan]
  simp

/-- Digits with a point between them are read if those on both sides of it are. -/
theorem isSome_toFloat?_point (h : '.' ∉ digits) :
    (Text.toFloat? (digits ++ '.' :: places)).isSome ↔
      (Text.toNat? digits).isSome ∧ (Text.toNat? places).isSome := by
  have hspan : (digits ++ '.' :: places).span (· != '.') = (digits, '.' :: places) :=
    span_append (bne_of_notMem h) (stops_cons rfl)
  -- The value is read from the digits of both sides together, which takes nothing more.
  have hjoined (hdigits : (Text.toNat? digits).isSome) (hplaces : (Text.toNat? places).isSome) :
      (Text.toNat? (digits ++ places)).isSome := by
    rw [isSome_toNat?_iff] at hdigits hplaces ⊢
    refine ⟨List.append_ne_nil_of_left_ne_nil hdigits.1 places, ?_⟩
    rw [List.forall_mem_append]
    exact ⟨hdigits.2, hplaces.2⟩
  rw [Text.toFloat?, hspan]
  cases hdigits : Text.toNat? digits with
  | none => simp [hdigits]
  | some n =>
    cases hplaces : Text.toNat? places with
    | none => simp [hdigits, hplaces]
    | some k =>
      rw [hdigits, hplaces] at hjoined
      obtain ⟨value, hvalue⟩ := Option.isSome_iff_exists.mp (hjoined rfl rfl)
      simp [hdigits, hplaces, hvalue]

/-- The number of a measurement is read exactly if it is plain. -/
theorem isSome_toFloat?_iff (h : IsNumber t) : (Text.toFloat? t).isSome ↔ Plain t := by
  rw [plain_iff h]
  cases h with
  | whole hdigits =>
    rw [isSome_toFloat?_of_notMem hdigits.point_notMem, isSome_toNat?_of_isRun hdigits]
  | fraction hdigits hplaces =>
    -- The point is no digit in any script, so only the digits on both sides of it count.
    have hpoint : isDecimalDigit '.' → '.'.isDigit := by decide
    rw [isSome_toFloat?_point hdigits.point_notMem, isSome_toNat?_of_isRun hdigits,
      isSome_toNat?_of_isRun hplaces, List.forall_mem_append, List.forall_mem_cons,
      and_iff_right hpoint]

end

/-! ### One measurement -/

/-- A unit is unknown exactly if its name is none of the list. -/
theorem ofName?_eq_none_iff {name : Text} : TimeUnit.ofName? name = none ↔ name ∉ unitNames := by
  rw [TimeUnit.ofName?, unitNames]
  simp only [List.map_cons, List.map_nil, List.mem_cons, List.not_mem_nil]
  grind

section

variable {m : Measurement}

/-- An estimate that counts is converted: its number can be read and its unit is known. -/
theorem millis_of_sound (hnumber : IsNumber m.estimate) (h : Sound m) :
    ∃ millis, m.millis = .ok millis := by
  -- The two parts of being sound are what the two steps of the conversion ask for.
  have hread : (Text.toFloat? m.estimate).isSome := (isSome_toFloat?_iff hnumber).mpr h.plain
  have hknown : TimeUnit.ofName? m.unit ≠ none := fun hnone =>
    ofName?_eq_none_iff.mp hnone h.known
  obtain ⟨value, hvalue⟩ := Option.isSome_iff_exists.mp hread
  obtain ⟨unit, hunit⟩ := Option.ne_none_iff_exists'.mp hknown
  rw [Measurement.millis, hvalue]
  show ∃ millis, toMillis value m.unit = .ok millis
  rw [toMillis, hunit]
  exact ⟨unit.toMillis value, rfl⟩

/-- An estimate that does not count is reported, and what is reported is its fault. The number is
looked at before the unit. -/
theorem millis_of_not_sound (hnumber : IsNumber m.estimate) (h : ¬ Sound m) :
    m.millis = .error (fault m) := by
  rw [Measurement.millis, fault]
  by_cases hplain : Plain m.estimate
  · -- The number is read, so it has to be the unit.
    have hunknown : m.unit ∉ unitNames := fun hknown => h ⟨hplain, hknown⟩
    obtain ⟨value, hvalue⟩ :=
      Option.isSome_iff_exists.mp ((isSome_toFloat?_iff hnumber).mpr hplain)
    rw [hvalue, (hasOtherDigit_eq_false_iff hnumber).mpr hplain]
    show toMillis value m.unit = .error (.unknownUnit m.unit)
    rw [toMillis, ofName?_eq_none_iff.mpr hunknown]
  · -- The number is not read, and its digit of another script tells why.
    have hnone : Text.toFloat? m.estimate = none := by
      rw [← Option.not_isSome_iff_eq_none, isSome_toFloat?_iff hnumber]
      exact hplain
    have hother : hasOtherDigit m.estimate = true := by
      rw [← Bool.not_eq_false, hasOtherDigit_eq_false_iff hnumber]
      exact hplain
    rw [hnone, hother]
    rfl

end

/-! ### All measurements

Adding a measurement can fail, but only because of the measurement: whatever the totals are, they
take any number of milliseconds. So a sum is decided by its measurements, and the first of them that
does not count is where it ends. -/

/-- Whether a measurement can be added does not depend on the totals. -/
theorem count_eq_ok_iff {totals : Totals} {m : Measurement} :
    (∃ next, totals.count m = .ok next) ↔ ∃ millis, m.millis = .ok millis := by
  rw [Totals.count]
  cases m.millis with
  | error e => simp [bind, Except.bind]
  | ok millis => simp [bind, Except.bind, pure, Except.pure]

/-- Measurements are added up exactly if each of them can be converted. -/
theorem foldlM_count_eq_ok_iff {ms : List Measurement} {totals : Totals} :
    (∃ final, ms.foldlM Totals.count totals = .ok final) ↔
      ∀ m ∈ ms, ∃ millis, m.millis = .ok millis := by
  induction ms generalizing totals with
  | nil => exact ⟨fun _ _ hm => (nomatch hm), fun _ => ⟨totals, rfl⟩⟩
  | cons m ms ih =>
    simp only [List.foldlM_cons, bind_eq_ok_iff]
    rw [List.forall_mem_cons, ← @count_eq_ok_iff totals]
    constructor
    · rintro ⟨final, next, hcount, hrest⟩
      exact ⟨⟨next, hcount⟩, ih.mp ⟨final, hrest⟩⟩
    · rintro ⟨⟨next, hcount⟩, hms⟩
      obtain ⟨final, hrest⟩ := ih.mpr hms
      exact ⟨final, next, hcount, hrest⟩

/-- What comes behind the first measurement that cannot be converted makes no difference. -/
theorem foldlM_count_eq_error {before after : List Measurement} {m : Measurement}
    {totals : Totals} {e : TotalsError}
    (hbefore : ∀ m' ∈ before, ∃ millis, m'.millis = .ok millis) (h : m.millis = .error e) :
    (before ++ m :: after).foldlM Totals.count totals = .error e := by
  obtain ⟨next, hnext⟩ := (@foldlM_count_eq_ok_iff before totals).mpr hbefore
  rw [List.foldlM_append, hnext]
  show (m :: after).foldlM Totals.count next = .error e
  rw [List.foldlM_cons, Totals.count, h]
  rfl

/-- What is reported of the first of the measurements that does not count. -/
inductive FirstFault : List Measurement → TotalsError → Prop
  | intro {before behind : List Measurement} {m : Measurement}
      (sound : ∀ m' ∈ before, Sound m') (faulty : ¬ Sound m) :
      FirstFault (before ++ m :: behind) (fault m)

/-- Measurements cannot be added to any totals exactly if one of them does not count, and the first
of these is reported. -/
theorem foldlM_count_eq_error_iff {ms : List Measurement}
    (hnumber : ∀ m ∈ ms, IsNumber m.estimate) {totals : Totals} {e : TotalsError} :
    ms.foldlM Totals.count totals = .error e ↔ FirstFault ms e := by
  -- The totals do not come into it: up to the fault every measurement is added, whatever they are.
  have herror {before behind : List Measurement} {m : Measurement}
      (hms : ms = before ++ m :: behind) (sound : ∀ m' ∈ before, Sound m') (faulty : ¬ Sound m) :
      ms.foldlM Totals.count totals = .error (fault m) := by
    rw [hms, List.forall_mem_append, List.forall_mem_cons] at hnumber
    rw [hms]
    exact foldlM_count_eq_error (fun m' hm' => millis_of_sound (hnumber.1 m' hm') (sound m' hm'))
      (millis_of_not_sound hnumber.2.1 faulty)
  constructor
  · intro h
    cases hfind : ms.find? fun m => !decide (Sound m) with
    | none =>
      -- Without a fault all of them are added, so there is no error.
      have hsound : ∀ m ∈ ms, Sound m := by simpa using List.find?_eq_none.mp hfind
      obtain ⟨final, hfinal⟩ := (@foldlM_count_eq_ok_iff ms totals).mpr fun m hm =>
        millis_of_sound (hnumber m hm) (hsound m hm)
      exact nomatch hfinal.symm.trans h
    | some m =>
      obtain ⟨hm, before, behind, hms, hbefore⟩ := List.find?_eq_some_iff_append.mp hfind
      have faulty : ¬ Sound m := by simpa using hm
      have sound : ∀ m' ∈ before, Sound m' := by simpa using hbefore
      obtain rfl : e = fault m := Except.error.inj (h.symm.trans (herror hms sound faulty))
      exact hms ▸ .intro sound faulty
  · rintro ⟨sound, faulty⟩
    exact herror rfl sound faulty

/-- The totals of a report exist exactly if each of its estimates counts. If not, the error is that
of the first one that does not: its number, if that has a digit that is none of `0` to `9`, and else
its unit. The bounds beside the estimates make no difference, nor do lines of any other kind. -/
theorem ofText_reports_first_fault (t : Text) :
    ∃ ms, (∀ ms', Captures (joinedLines t) ms' ↔ ms' = ms) ∧
      ((∃ totals, Totals.ofText t = .ok totals) ↔ ∀ m ∈ ms, Sound m) ∧
      (∀ before m after, ms = before ++ m :: after → (∀ m' ∈ before, Sound m') → ¬ Sound m →
        Totals.ofText t = .error (fault m)) ∧
      ∀ t', Captures (joinedLines t') ms → Totals.ofText t' = Totals.ofText t := by
  have hnumber : ∀ m ∈ measurements t, IsNumber m.estimate := fun m =>
    isNumber_of_mem_measurements
  refine ⟨measurements t, fun ms' => captures_joinedLines_iff, ?_, ?_, ?_⟩
  · -- There are totals exactly if every estimate counts.
    rw [Totals.ofText, foldlM_count_eq_ok_iff]
    constructor
    · intro hmillis m hm
      by_contra hfaulty
      obtain ⟨millis, hok⟩ := hmillis m hm
      rw [millis_of_not_sound (hnumber m hm) hfaulty] at hok
      cases hok
    · intro hsound m hm
      exact millis_of_sound (hnumber m hm) (hsound m hm)
  · -- Up to the first fault everything is added, and what is behind it is not looked at.
    intro before m after hms hsound hfaulty
    rw [hms, List.forall_mem_append, List.forall_mem_cons] at hnumber
    have hbefore : ∀ m' ∈ before, ∃ millis, m'.millis = .ok millis := fun m' hm' =>
      millis_of_sound (hnumber.1 m' hm') (hsound m' hm')
    rw [Totals.ofText, hms]
    exact foldlM_count_eq_error hbefore (millis_of_not_sound hnumber.2.1 hfaulty)
  · intro t' hcaptures
    rw [Totals.ofText, ← captures_joinedLines_iff.mp hcaptures, Totals.ofText]

/-- A report with faults in the bounds of its first measurement, two faults in the estimate of the
second one, which is wrapped, and one in that of the third. -/
def faultyReport : Text :=
  ["Found 1 outlier\n", "lambda/add time: [\u0661 eons 2.5 ms 3 eons]\n",
    "lambda/mul\n  time: [1 ms \u0661.5 min 2 ms]\n",
    "fast/add time: [1 ms 7 min 9 ms]\n"].flatMap String.toList

/-- The second estimate is reported, and its number rather than its unit. -/
theorem ofText_reports_first_fault_faultyReport :
    Totals.ofText faultyReport = .error (.invalidValue "\u0661.5".toList) := by
  obtain ⟨ms, hms, -, hfirst, -⟩ := ofText_reports_first_fault faultyReport
  have hcaptures : Captures (joinedLines faultyReport)
      [⟨"lambda".toList, "2.5".toList, "ms".toList⟩,
       ⟨"lambda".toList, "\u0661.5".toList, "min".toList⟩,
       ⟨"fast".toList, "7".toList, "min".toList⟩] :=
    captures_joinedLines_iff.mpr (by decide +kernel)
  have hsound : ∀ m ∈ [⟨"lambda".toList, "2.5".toList, "ms".toList⟩], Sound m :=
    List.forall_mem_singleton.mpr (by decide +kernel)
  exact hfirst _ _ [_] ((hms _).mp hcaptures).symm hsound (by decide +kernel)

end AsmVariants.Proofs
