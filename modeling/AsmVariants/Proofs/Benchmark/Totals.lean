import AsmVariants.Benchmark.Totals
import AsmVariants.Proofs.Except
import AsmVariants.Proofs.List

/-!
# `AsmVariants.Proofs.Benchmark.Totals`: what the totals are the totals of

The totals are an association list that is updated in place, one measurement after another.
`Tallies` says what it holds at any time: the machines that were measured so far, in the order in
which they were first seen, and for each of them the sum of its own estimates, added from left to
right. It holds at the start (`tallies_empty`), one more measurement keeps it (`tallies_count`),
and so it holds at the end (`tallies_ofText`).

Floating-point addition is not associative, so the sum is that of `leftSum`, which fixes the order.
Nothing else is asked of the addition, nor of the conversion to milliseconds. That the estimates of
other machines between its own make no difference to a machine is part of
`ofText_eq_ok_leftSum`.

`Added` says the same of measurements that are added to totals that are there already: the new
machines come behind the old ones, and each sum goes on from the total that the machine had. The
totals that come of it are settled (`Added.eq`). For totals that tally a list of measurements, going
on from them is tallying the longer list (`Tallies.added`).
-/

set_option autoImplicit false

namespace AsmVariants.Proofs

open Benchmark

/-- The sum of the numbers from left to right, if there are any. -/
def leftSum : List Float → Option Float
  | [] => none
  | first :: others => some (others.foldl (· + ·) first)

/-- The sum goes on behind a stretch of the numbers from the sum of that stretch. -/
theorem leftSum_append (values others : List Float) :
    leftSum (values ++ others) = leftSum ((leftSum values).toList ++ others) := by
  cases values with
  | nil => rfl
  | cons first values => simp [leftSum]

/-- A number at the end is added last. -/
theorem leftSum_concat (values : List Float) (value : Float) :
    leftSum (values ++ [value]) = some ((leftSum values).elim value (· + value)) := by
  cases values with
  | nil => rfl
  | cons first others => simp [leftSum]

/-! ### One measurement more

An entry is changed in place or put at the end. The two lemmas say what that does to the list of
machines and to the total of any machine, and the entries are not looked at again. -/

section

variable (machine other : Text) (millis : Float) (entries : List (Text × Float))

/-- A machine that has an entry keeps its place, and a new one is put at the end. -/
theorem map_fst_addEntry :
    (Totals.addEntry machine millis entries).map Prod.fst =
      if machine ∈ entries.map Prod.fst then entries.map Prod.fst
      else entries.map Prod.fst ++ [machine] := by
  induction entries with
  | nil => rfl
  | cons entry entries ih =>
    obtain ⟨name, total⟩ := entry
    rw [Totals.addEntry]
    by_cases h : name = machine
    · simp [h]
    · have hne : machine ≠ name := Ne.symm h
      rw [if_neg h, List.map_cons, ih]
      simp only [List.map_cons, List.mem_cons, hne, false_or]
      split <;> rfl

/-- The total of the machine grows by the milliseconds, or begins with them, and the totals of all
other machines are kept. -/
theorem lookup_addEntry :
    (Totals.addEntry machine millis entries).lookup other =
      if other = machine then some ((entries.lookup machine).elim millis (· + millis))
      else entries.lookup other := by
  induction entries with
  | nil => exact lookup_cons_eq_ite machine other millis []
  | cons entry entries ih =>
    obtain ⟨name, total⟩ := entry
    rw [Totals.addEntry, lookup_cons_eq_ite name other, lookup_cons_eq_ite name machine]
    by_cases hname : name = machine
    · subst hname
      rw [if_pos rfl, if_pos rfl, lookup_cons_eq_ite]
      split <;> rfl
    · -- The first entry is of another machine. It stays, and the rest is by induction.
      rw [if_neg hname, lookup_cons_eq_ite, ih, if_neg (Ne.symm hname)]
      by_cases hother : other = name
      · rw [if_pos hother, if_pos hother, if_neg fun h => hname (hother.symm.trans h)]
      · rw [if_neg hother, if_neg hother]

end

/-! ### All measurements

The invariant is `Tallies`: it is stated for the measurements so far, so one more measurement is one
more at the end of the list. -/

/-- The totals are those of the measurements. -/
structure Tallies (measurements : List Measurement) (totals : Totals) : Prop where
  /-- Each machine has one entry, in the order of the first measurements. -/
  machines : totals.entries.map Prod.fst = (measurements.map Measurement.machine).eraseDups
  /-- The total of a machine is the sum of its own estimates, in their order. -/
  sums : ∀ machine, ∃ values,
    (measurements.filter (·.machine = machine)).mapM Measurement.millis = .ok values ∧
      totals.get? machine = leftSum values

/-- Without measurements there are no totals. -/
theorem tallies_empty : Tallies [] Totals.empty where
  machines := rfl
  sums _ := ⟨[], rfl, rfl⟩

/-- One measurement more is the step of the induction. Its machine is put at the end if it is new,
and its estimate is added last to the sum of the machine. -/
theorem tallies_count {measurements : List Measurement} {totals next : Totals}
    {measurement : Measurement} (h : Tallies measurements totals)
    (hcount : totals.count measurement = .ok next) :
    Tallies (measurements ++ [measurement]) next := by
  obtain ⟨millis, hmillis, hnext⟩ := bind_eq_ok_iff.mp hcount
  obtain rfl : totals.add measurement.machine millis = next := Except.ok.inj hnext
  refine ⟨?_, fun machine => ?_⟩
  · rw [Totals.add, map_fst_addEntry, h.machines, List.map_append, List.map_singleton,
      eraseDups_concat]
    simp only [List.mem_eraseDups]
  · -- The sum of one machine grows at its end, and those of all others stay as they are.
    obtain ⟨values, hvalues, hsum⟩ := h.sums machine
    rw [Totals.get?, Totals.add, lookup_addEntry, List.filter_append]
    by_cases hmachine : measurement.machine = machine
    · subst hmachine
      refine ⟨values ++ [millis], ?_, ?_⟩
      · have hlast : [measurement].filter (·.machine = measurement.machine) = [measurement] := by
          simp
        rw [hlast, mapM_eq_ok_iff]
        exact List.rel_append (mapM_eq_ok_iff.mp hvalues) (.cons hmillis .nil)
      · rw [if_pos rfl, leftSum_concat, ← hsum]
        rfl
    · refine ⟨values, ?_, ?_⟩
      · have hlast : [measurement].filter (·.machine = machine) = [] := by simp [hmachine]
        rw [hlast, List.append_nil, hvalues]
      · rw [if_neg (Ne.symm hmachine), ← hsum]
        rfl

/-- Measurements that are added one after another are tallied behind those that were there before.
-/
theorem tallies_foldlM {before later : List Measurement} {totals final : Totals}
    (h : Tallies before totals) (hfold : later.foldlM Totals.count totals = .ok final) :
    Tallies (before ++ later) final := by
  induction later generalizing before totals with
  | nil =>
    obtain rfl : totals = final := Except.ok.inj hfold
    rwa [List.append_nil]
  | cons measurement later ih =>
    rw [List.foldlM_cons, bind_eq_ok_iff] at hfold
    obtain ⟨next, hcount, hrest⟩ := hfold
    rw [List.append_cons]
    exact ih (tallies_count h hcount) hrest

/-- The totals of a report are those of all its measurements. -/
theorem tallies_ofText {t : Text} {totals : Totals} (h : Totals.ofText t = .ok totals) :
    Tallies (measurements t) totals :=
  tallies_foldlM tallies_empty h

/-! ### Going on from totals -/

/-- Some totals are those of before, with measurements added to them one after another. -/
structure Added (before : Totals) (measurements : List Measurement) (after : Totals) : Prop where
  /-- The machines of before come first, and then the new ones, in the order of their first
  measurements. -/
  machines : after.entries.map Prod.fst =
    (before.entries.map Prod.fst ++ measurements.map Measurement.machine).eraseDups
  /-- The sum of a machine goes on from the total of before, if there was one, with the machine's
  own estimates from left to right. -/
  sums : ∀ machine, ∃ values,
    (measurements.filter (·.machine = machine)).mapM Measurement.millis = .ok values ∧
      after.get? machine = leftSum ((before.get? machine).toList ++ values)

/-- The totals of a list of measurements go on from those of its beginning. -/
theorem Tallies.added {earlier later : List Measurement} {before after : Totals}
    (h : Tallies earlier before) (h' : Tallies (earlier ++ later) after) :
    Added before later after := by
  refine ⟨?_, fun machine => ?_⟩
  · rw [h'.machines, h.machines, List.map_append, eraseDups_append_eraseDups]
  · obtain ⟨values, hvalues, hsum⟩ := h.sums machine
    obtain ⟨all, hall, hsum'⟩ := h'.sums machine
    -- The estimates of the whole list are those of its beginning and those behind it.
    rw [List.filter_append, List.mapM_append, hvalues, bind_eq_ok_iff] at hall
    obtain ⟨_, hbegin, hall⟩ := hall
    obtain ⟨behind, hbehind, hall⟩ := bind_eq_ok_iff.mp hall
    obtain rfl := Except.ok.inj hbegin
    obtain rfl := Except.ok.inj hall
    exact ⟨behind, hbehind, by rw [hsum', hsum, leftSum_append]⟩

/-- Every measurement that was added has an estimate that can be converted. -/
theorem Added.exists_millis {before after : Totals} {measurements : List Measurement}
    (h : Added before measurements after) :
    ∀ m ∈ measurements, ∃ millis, m.millis = .ok millis := by
  intro m hm
  obtain ⟨values, hvalues, -⟩ := h.sums m.machine
  have hown : m ∈ measurements.filter (·.machine = m.machine) := by simp [hm]
  exact exists_of_mapM_eq_ok hvalues m hown

/-- What the measurements add up to is settled: there are no two totals that go on from those of
before with the same measurements. -/
theorem Added.eq {before after after' : Totals} {measurements : List Measurement}
    (h : Added before measurements after) (h' : Added before measurements after') :
    after = after' := by
  have nodup : (after.entries.map Prod.fst).Nodup := by
    rw [h.machines]
    exact nodup_eraseDups _
  -- Both go on with the same estimates, since these are read off the measurements alone.
  have hget : ∀ machine, after.get? machine = after'.get? machine := by
    intro machine
    obtain ⟨values, hvalues, hsum⟩ := h.sums machine
    obtain ⟨values', hvalues', hsum'⟩ := h'.sums machine
    obtain rfl : values = values' := Except.ok.inj (hvalues.symm.trans hvalues')
    rw [hsum, hsum']
  have hentries := eq_of_lookup_eq nodup (h.machines.trans h'.machines.symm) hget
  rcases after with ⟨entries⟩
  rcases after' with ⟨entries'⟩
  exact congrArg Totals.mk hentries

/-! ### Reports -/

/-- The machines of a report are those that were measured, each once, in the order of their first
measurements. The total of a machine is the sum from left to right of its own estimates, so two
reports in which the measurements of the machine are the same have the same total for it. Without
measurements there are no totals. -/
theorem ofText_eq_ok_leftSum {t : Text} {totals : Totals} (h : Totals.ofText t = .ok totals) :
    totals.entries.map Prod.fst = ((measurements t).map Measurement.machine).eraseDups ∧
    (totals.entries.map Prod.fst).Nodup ∧
    (∀ machine, machine ∈ totals.entries.map Prod.fst ↔
      ∃ measurement ∈ measurements t, measurement.machine = machine) ∧
    (∀ machine, ∃ values,
      ((measurements t).filter (·.machine = machine)).mapM Measurement.millis = .ok values ∧
        totals.get? machine = leftSum values) ∧
    (∀ t' totals' machine, Totals.ofText t' = .ok totals' →
      (measurements t').filter (·.machine = machine) =
        (measurements t).filter (·.machine = machine) →
      totals'.get? machine = totals.get? machine) ∧
    (totals.entries = [] ↔ measurements t = []) := by
  have tallies : Tallies (measurements t) totals := tallies_ofText h
  refine ⟨tallies.machines, ?_, fun machine => ?_, tallies.sums, ?_, ?_⟩
  · rw [tallies.machines]
    exact nodup_eraseDups _
  · rw [tallies.machines, List.mem_eraseDups, List.mem_map]
  · -- The same measurements of a machine have the same values, and these settle the sum.
    intro t' totals' machine h' hsame
    obtain ⟨values, hvalues, hsum⟩ := tallies.sums machine
    obtain ⟨values', hvalues', hsum'⟩ := (tallies_ofText h').sums machine
    rw [hsame, hvalues] at hvalues'
    obtain rfl : values = values' := Except.ok.inj hvalues'
    rw [hsum', hsum]
  · rw [← List.map_eq_nil_iff (f := Prod.fst), tallies.machines, eraseDups_eq_nil_iff,
      List.map_eq_nil_iff]

/-- A report with two machines, one of which is measured before and after the other. -/
def mixedReport : Text :=
  ("lambda/add  time:   [2.0 ms 2.5 ms 3.0 ms]\n" ++
    "legacy/add  time:   [900 us 1.5 ms 2 ms]\n" ++
    "lambda/wrapped\n   time:   [1 s 1.5 s 2.0 s]\n").toList

/-- The measurements of the report, in the order of their lines. -/
theorem measurements_mixedReport :
    measurements mixedReport =
      [⟨"lambda".toList, "2.5".toList, "ms".toList⟩, ⟨"legacy".toList, "1.5".toList, "ms".toList⟩,
       ⟨"lambda".toList, "1.5".toList, "s".toList⟩] := by decide +kernel

/-- The two estimates of the first machine are added up, and the other machine comes behind it. -/
theorem ofText_eq_ok_leftSum_mixedReport :
    ∃ totals, Totals.ofText mixedReport = .ok totals ∧
      totals.entries.map Prod.fst = ["lambda", "legacy"].map String.toList ∧
      ∃ first second, Measurement.millis ⟨"lambda".toList, "2.5".toList, "ms".toList⟩ = .ok first ∧
        Measurement.millis ⟨"lambda".toList, "1.5".toList, "s".toList⟩ = .ok second ∧
        totals.get? "lambda".toList = some (first + second) := by
  have hrun : ∃ totals, Totals.ofText mixedReport = .ok totals := by
    rw [Totals.ofText, measurements_mixedReport]
    exact ⟨_, rfl⟩
  obtain ⟨totals, h⟩ := hrun
  obtain ⟨hmachines, -, -, hsums, -, -⟩ := ofText_eq_ok_leftSum h
  refine ⟨totals, h, ?_, _, _, rfl, rfl, ?_⟩
  · rw [hmachines, measurements_mixedReport]
    decide +kernel
  · obtain ⟨values, hvalues, hsum⟩ := hsums "lambda".toList
    rw [measurements_mixedReport] at hvalues
    rw [hsum, ← Except.ok.inj hvalues]
    rfl

end AsmVariants.Proofs
