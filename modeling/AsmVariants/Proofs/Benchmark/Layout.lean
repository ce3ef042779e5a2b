import AsmVariants.Benchmark.Totals
import AsmVariants.Proofs.Benchmark.Faults
import AsmVariants.Proofs.Benchmark.Spacing
import AsmVariants.Proofs.Benchmark.Wrapping

/-!
# `AsmVariants.Proofs.Benchmark.Layout`: reports with the same totals

A report is read in two steps: its wrapped lines are joined, and then each line is read by itself.
`told` is the second step. How a report is laid out does not change what it tells:

* `ofText_wrapped`: a measurement can be wrapped behind its name.
* `ofText_append`: a report behind another one goes on from its totals, machine by machine, or both
  fail with the first estimate that does not count.
* `ofText_crlf`: lines can end with a carriage return and a newline.

The first step changes a text in the middle, where a line is not complete yet. So the lemmas about
`told` have a text in front and a text behind: `told_append` cuts at a newline, `told_indent` is
about white space in front of a mark, and `told_return` about a carriage return at the end of a
line. The induction over the first step in `told_unwrapFrom_crlf` has the text in front general: it
holds what is joined already.
-/

set_option autoImplicit false

namespace AsmVariants.Proofs

open Benchmark
open Text (dropTerminator isBlank isWordChar splitLines)

/-! ### What the lines of a text tell

The measurements of a report are those of its joined text, line by line. A text that ends a line can
be told by itself, and so can what follows it. -/

/-- The measurements on the lines of a text, each read by itself. -/
def told (t : Text) : List Measurement :=
  ((splitLines t).map dropTerminator).filterMap Measurement.ofLine?

/-- A report is read in two steps. -/
theorem measurements_eq_told (t : Text) : measurements t = told (unwrap t) := rfl

/-- A text that ends its last line can be read before what stands behind it. -/
theorem told_append {before : Text} (h : EndsLine before) (t : Text) :
    told (before ++ t) = told before ++ told t := by
  simp only [told, splitLines_append h, List.map_append, List.filterMap_append]

/-- A line without an end has none that is taken off. -/
theorem dropTerminator_of_notMem {line : Text} (h : '\n' ∉ line) : dropTerminator line = line := by
  rw [dropTerminator]
  split
  · next heq => exact absurd (List.mem_reverse.mp (heq ▸ List.mem_cons_self)) h
  · next heq => exact absurd (List.mem_reverse.mp (heq ▸ List.mem_cons_self)) h
  · rfl

/-- A carriage return in front of the newline makes no difference. -/
theorem ofLine?_dropTerminator (line : Text) :
    Measurement.ofLine? (dropTerminator (line ++ ['\n'])) = Measurement.ofLine? line := by
  rw [dropTerminator, List.reverse_concat]
  cases hline : line.reverse with
  | nil => rw [List.reverse_eq_nil_iff.mp hline]; rfl
  | cons c rest =>
    obtain rfl : line = rest.reverse ++ [c] := by simpa using congrArg List.reverse hline
    -- The line ends with a carriage return, which is dropped and would make no difference, or with
    -- another character, which is kept.
    split
    · next heq =>
      obtain ⟨rfl, rfl⟩ := List.cons.inj (List.cons.inj heq).2
      exact (ofLine?_append (by decide)).symm
    · next heq =>
      obtain rfl := (List.cons.inj heq).2
      simp
    · next hnone => exact absurd rfl (hnone _)

section

variable {line line' : Text} (hline : '\n' ∉ line)

include hline

/-- A text without newlines is one line. -/
theorem told_of_notMem : told line = (Measurement.ofLine? line).toList := by
  rw [told, splitLines_of_notMem hline]
  by_cases hempty : line = []
  · subst hempty
    rfl
  · rw [if_neg hempty, List.map_singleton, dropTerminator_of_notMem hline]
    cases hread : Measurement.ofLine? line with
    | none => simp [hread]
    | some m => simp [hread]

/-- The first line of a text is read by itself. -/
theorem told_append_newline (rest : Text) :
    told (line ++ '\n' :: rest) = (Measurement.ofLine? line).toList ++ told rest := by
  rw [told, splitLines_append_newline hline, List.map_cons, ← ofLine?_dropTerminator line]
  cases hread : Measurement.ofLine? (dropTerminator (line ++ ['\n'])) with
  | none => rw [List.filterMap_cons_none hread]; rfl
  | some m => rw [List.filterMap_cons_some hread]; rfl

/-- Where a line begins in another way that reads the same whatever comes behind, the text tells the
same. -/
theorem told_congr (hline' : '\n' ∉ line')
    (h : ∀ tail, Measurement.ofLine? (line ++ tail) = Measurement.ofLine? (line' ++ tail))
    (rest : Text) : told (line ++ rest) = told (line' ++ rest) := by
  by_cases hrest : '\n' ∈ rest
  · obtain ⟨tail, below, rfl, htail⟩ := List.eq_append_cons_of_mem hrest
    rw [← List.append_assoc, ← List.append_assoc, told_append_newline (by simp [hline, htail]),
      told_append_newline (by simp [hline', htail]), h]
  · rw [told_of_notMem (by simp [hline, hrest]), told_of_notMem (by simp [hline', hrest]), h]

end

/-! ### Changes in the middle of a text

Both lemmas change a text behind some beginning that may leave its last line open. That line is the
only one that the change can reach, so it is cut off first. -/

section

variable (before rest : Text)

/-- White space in front of a mark can be any other, as long as it stays on the line. -/
theorem told_indent {gap gap' : Text} (hgap : IsRun isBlank gap) (hgap' : IsRun isBlank gap')
    (hline : '\n' ∉ gap) (hline' : '\n' ∉ gap') :
    told (before ++ (gap ++ (timeMark ++ rest))) =
      told (before ++ (gap' ++ (timeMark ++ rest))) := by
  obtain ⟨above, start, rfl, habove, hstart⟩ := exists_endsLine_append before
  have hmark : '\n' ∉ timeMark := by decide
  have hsame := @told_congr (start ++ (gap ++ timeMark)) (start ++ (gap' ++ timeMark))
    (by simp [hstart, hline, hmark]) (by simp [hstart, hline', hmark])
    (fun tail => by simpa using ofLine?_indent hgap hgap') rest
  rw [List.append_assoc, List.append_assoc, told_append habove, told_append habove]
  simpa using hsame

/-- A line can end with a carriage return and a newline. -/
theorem told_return : told (before ++ '\r' :: '\n' :: rest) = told (before ++ '\n' :: rest) := by
  obtain ⟨above, start, rfl, habove, hstart⟩ := exists_endsLine_append before
  have hreturn : '\n' ∉ start ++ ['\r'] := by simp [hstart]
  have hsame := told_append_newline hreturn rest
  rw [ofLine?_append (by decide), ← told_append_newline hstart rest] at hsame
  rw [List.append_assoc, List.append_assoc, told_append habove, told_append habove, ← hsame]
  simp

end

/-! ### Wrapped measurements

In the wrapped report the newline and the white space around it become white space in front of the
mark, and the plain report has white space there to begin with. -/

/-- What begins with a name does not begin with the mark. -/
theorem startsWithMark_name {machine : Text} (hmachine : IsRun isWordChar machine) (rest : Text) :
    startsWithMark (machine ++ '/' :: rest) = false := by
  have hstart : startsWithMark (machine ++ '/' :: rest) =
      timeMark.isPrefixOf (machine ++ '/' :: rest) := by
    cases machine with
    | nil => exact absurd rfl hmachine.ne_nil
    | cons c machine =>
      refine startsWithMark_cons_of_not_isBlank ?_
      cases hc : isBlank c with
      | false => rfl
      | true =>
        exact nomatch (hmachine.all c List.mem_cons_self).symm.trans (isWordChar_of_isBlank hc)
  rw [hstart, ← Bool.not_eq_true, List.isPrefixOf_iff_prefix]
  intro ⟨behind, heq⟩
  -- Either the mark would have a slash, or the machine a colon.
  rcases append_eq_append_cons_iff.mp heq with ⟨e, hmark, -⟩ | ⟨e, hin, -⟩
  · exact absurd (by rw [hmark]; simp : '/' ∈ timeMark) (by decide)
  · exact hmachine.notMem (by decide : isWordChar ':' = false) (by rw [hin]; simp [timeMark])

/-- A measurement whose name has a line of its own tells the same as on one line, and so does the
whole report. The name is the first thing on its line, with any white space behind it, and below it
the mark is indented, maybe behind empty lines. -/
theorem ofText_wrapped {above machine bench gap behind below : Text} (rest : Text)
    (habove : EndsLine above) (hmachine : IsRun isWordChar machine)
    (hbench : IsRun isWordChar bench) (hgap : IsRun isBlank gap) (hline : '\n' ∉ gap)
    (hbehind : ∀ c ∈ behind, isBlank c) (hbehindLine : '\n' ∉ behind)
    (hbelow : IsRun isBlank below) :
    let report := above ++ (machine ++ '/' :: bench ++ (gap ++ (timeMark ++ rest)))
    let wrapped := above ++ (machine ++ '/' :: bench ++ (behind ++ '\n' ::
      (below ++ (timeMark ++ rest))))
    measurements wrapped = measurements report ∧ Totals.ofText wrapped = Totals.ofText report := by
  intro report wrapped
  have hname : '\n' ∉ machine ++ '/' :: bench := by
    have hnewline : isWordChar '\n' = false := by decide
    simp [hmachine.notMem hnewline, hbench.notMem hnewline]
  have hstart (t : Text) : startsWithMark (machine ++ '/' :: bench ++ t) = false := by
    rw [List.append_assoc, List.cons_append]
    exact startsWithMark_name hmachine _
  have hmark : '\n' ∉ timeMark := by decide
  have hreport : unwrap report = unwrap above ++
      (machine ++ '/' :: bench ++ (gap ++ (timeMark ++ unwrap rest))) := by
    rw [unwrap_append habove (hstart _), unwrap_append_of_notMem hname,
      unwrap_append_of_notMem hline, unwrap_append_of_notMem hmark]
  have hwrapped : unwrap wrapped = unwrap above ++
      (machine ++ '/' :: bench ++ (behind ++ ' ' :: (timeMark ++ unwrap rest))) := by
    rw [unwrap_append habove (hstart _), unwrap_append_of_notMem hname,
      unwrap_append_of_notMem hbehindLine, unwrap_wrapped hbelow]
  -- The two differ in the white space in front of the mark.
  have hindent : IsRun isBlank (behind ++ [' ']) := by
    refine ⟨by simp, ?_⟩
    rw [List.forall_mem_append, List.forall_mem_singleton]
    exact ⟨hbehind, by decide⟩
  have hsame := told_indent (unwrap above ++ (machine ++ '/' :: bench)) (unwrap rest) hindent hgap
    (by simp [hbehindLine]) hline
  have hmeasurements : measurements wrapped = measurements report := by
    rw [measurements_eq_told, measurements_eq_told, hreport, hwrapped]
    simpa using hsame
  exact ⟨hmeasurements, by rw [Totals.ofText, hmeasurements, Totals.ofText]⟩

/-- The mark is below an empty line and a line of white space, and it follows another measurement
that is wrapped. -/
theorem ofText_wrapped_emptyLines :
    let report := "fast/add\n  time: [1 s 2 s 3 s]\nlambda/mul\ttime: [1 ms 2.5 ms 4 ms]".toList
    let wrapped :=
      "fast/add\n  time: [1 s 2 s 3 s]\nlambda/mul \r\n\n \t\n  time: [1 ms 2.5 ms 4 ms]".toList
    measurements wrapped =
        [⟨"fast".toList, "2".toList, "s".toList⟩, ⟨"lambda".toList, "2.5".toList, "ms".toList⟩] ∧
      Totals.ofText wrapped = Totals.ofText report := by
  intro report wrapped
  let above := "fast/add\n  time: [1 s 2 s 3 s]".toList ++ ['\n']
  have hreport : report = above ++ ("lambda".toList ++ '/' :: "mul".toList ++
      ("\t".toList ++ (timeMark ++ " [1 ms 2.5 ms 4 ms]".toList))) := by decide +kernel
  have hwrapped : wrapped = above ++ ("lambda".toList ++ '/' :: "mul".toList ++
      (" \r".toList ++ '\n' :: ("\n \t\n  ".toList ++ (timeMark ++
        " [1 ms 2.5 ms 4 ms]".toList)))) := by decide +kernel
  have hread : measurements report =
      [⟨"fast".toList, "2".toList, "s".toList⟩, ⟨"lambda".toList, "2.5".toList, "ms".toList⟩] := by
    decide +kernel
  rw [← hread, hreport, hwrapped]
  have hbehind : IsRun isBlank " \r".toList := by decide +kernel
  exact ofText_wrapped _ (.newline _) (by decide +kernel) (by decide +kernel) (by decide)
    (by decide) hbehind.all (by decide) (by decide +kernel)

/-! ### One report behind another

What both reports tell is a list of measurements, and the totals are a fold over it. So the totals
of the first report are where the fold over the second one starts, and what the second one does to
them is `Added` or a `FirstFault`. -/

/-- Measurements that are added behind others lead to the totals that go on from those of the
others, and to no other totals. -/
theorem foldlM_count_eq_ok_iff_added {earlier later : List Measurement} {before after : Totals}
    (h : earlier.foldlM Totals.count .empty = .ok before) :
    later.foldlM Totals.count before = .ok after ↔ Added before later after := by
  have tallies : Tallies earlier before := tallies_foldlM tallies_empty h
  constructor
  · intro hadd
    exact tallies.added (tallies_foldlM tallies hadd)
  · intro added
    -- All estimates can be converted, so there are totals, and they are the only ones.
    obtain ⟨final, hfinal⟩ := (@foldlM_count_eq_ok_iff later before).mpr added.exists_millis
    rw [hfinal, added.eq (tallies.added (tallies_foldlM tallies hfinal))]

/-- A report behind another one tells what it tells by itself, if the other one ends with a newline
and it does not begin with a mark, with white space in front or not. So the two fail as the first
one does. If the first one has totals, then those of the two go on from them: the machines of the
second report stand behind those of the first, unless they are there already, and the sum of each
machine goes on with its own estimates in the second report, from left to right. And if one of the
estimates in the second report does not count, the two fail with the first that does not. -/
theorem ofText_append {first second : Text} (hfirst : EndsLine first)
    (hsecond : ∀ blanks rest, (∀ c ∈ blanks, isBlank c) → second ≠ blanks ++ (timeMark ++ rest)) :
    measurements (first ++ second) = measurements first ++ measurements second ∧
    (∀ error, Totals.ofText first = .error error →
      Totals.ofText (first ++ second) = .error error) ∧
    ∀ totals, Totals.ofText first = .ok totals →
      (∀ final, Totals.ofText (first ++ second) = .ok final ↔
        Added totals (measurements second) final) ∧
      ∀ error, Totals.ofText (first ++ second) = .error error ↔
        FirstFault (measurements second) error := by
  -- The newline at the end of the first report stays, so no line of one report runs into the other.
  have hmark : startsWithMark second = false := by
    rw [← Bool.not_eq_true, startsWithMark_iff]
    intro ⟨blanks, rest, hblanks, heq⟩
    exact hsecond blanks rest hblanks heq
  have hmeasurements : measurements (first ++ second) =
      measurements first ++ measurements second := by
    rw [measurements_eq_told, unwrap_append hfirst hmark, told_append (endsLine_unwrap hfirst)]
    rfl
  refine ⟨hmeasurements, fun error h => ?_, fun totals h => ?_⟩
  · rw [Totals.ofText] at h
    rw [Totals.ofText, hmeasurements, List.foldlM_append, h]
    rfl
  · rw [Totals.ofText] at h
    -- The fold over the second report starts where the fold over the first one ended.
    have hrest : Totals.ofText (first ++ second) =
        (measurements second).foldlM Totals.count totals := by
      rw [Totals.ofText, hmeasurements, List.foldlM_append, h]
      rfl
    rw [hrest]
    exact ⟨fun final => foldlM_count_eq_ok_iff_added h, fun error =>
      foldlM_count_eq_error_iff fun m => isNumber_of_mem_measurements⟩

/-- The second report begins with white space, and its own wrapped line is joined. Its measurement
of a machine that the first report has is added to the total of the first report, and the other
machine comes behind it. -/
theorem ofText_append_indented :
    let first := "lambda/add time: [1 ms 2.5 ms 3 ms]\n ".toList ++ ['\n']
    let second :=
      "\n  fast/add\n\nlambda/mul\n time: [1 s 2 s 3 s]\nfast/mul time: [1 us 4 us 9 us]".toList
    measurements (first ++ second) =
        [⟨"lambda".toList, "2.5".toList, "ms".toList⟩, ⟨"lambda".toList, "2".toList, "s".toList⟩,
          ⟨"fast".toList, "4".toList, "us".toList⟩] ∧
      ∃ totals final, Totals.ofText first = .ok totals ∧
        Totals.ofText (first ++ second) = .ok final ∧
        totals.entries.map Prod.fst = ["lambda".toList] ∧
        final.entries.map Prod.fst = ["lambda".toList, "fast".toList] ∧
        ∃ total more other, totals.get? "lambda".toList = some total ∧
          Measurement.millis ⟨"lambda".toList, "2".toList, "s".toList⟩ = .ok more ∧
          Measurement.millis ⟨"fast".toList, "4".toList, "us".toList⟩ = .ok other ∧
          final.get? "lambda".toList = some (total + more) ∧
          final.get? "fast".toList = some other := by
  intro first second
  have hmark : startsWithMark second = false := by decide +kernel
  have hsecond : ∀ blanks rest, (∀ c ∈ blanks, isBlank c) →
      second ≠ blanks ++ (timeMark ++ rest) := by
    intro blanks rest hblanks heq
    exact nomatch hmark.symm.trans (startsWithMark_iff.mpr ⟨blanks, rest, hblanks, heq⟩)
  have hone : measurements first = [⟨"lambda".toList, "2.5".toList, "ms".toList⟩] := by
    decide +kernel
  have hother : measurements second = [⟨"lambda".toList, "2".toList, "s".toList⟩,
      ⟨"fast".toList, "4".toList, "us".toList⟩] := by
    decide +kernel
  have hread : ∃ totals, Totals.ofText first = .ok totals := by
    rw [Totals.ofText, hone]
    exact ⟨_, rfl⟩
  obtain ⟨totals, hok⟩ := hread
  obtain ⟨hmeasurements, -, htotals⟩ := @ofText_append first second (.newline _) hsecond
  rw [hone, hother] at hmeasurements
  have hboth : ∃ final, Totals.ofText (first ++ second) = .ok final := by
    rw [Totals.ofText, hmeasurements]
    exact ⟨_, rfl⟩
  obtain ⟨final, hfinal⟩ := hboth
  have added : Added totals (measurements second) final := ((htotals totals hok).1 final).mp hfinal
  rw [hother] at added
  -- The first report has one machine.
  have tallies : Tallies (measurements first) totals := tallies_ofText hok
  rw [hone] at tallies
  obtain ⟨values, hvalues, hsum⟩ := tallies.sums "lambda".toList
  obtain ⟨values', hvalues', hsum'⟩ := tallies.sums "fast".toList
  rw [← Except.ok.inj hvalues] at hsum
  rw [← Except.ok.inj hvalues'] at hsum'
  refine ⟨hmeasurements, totals, final, hok, hfinal, ?_, ?_, _, _, _, hsum, rfl, rfl, ?_, ?_⟩
  · rw [tallies.machines]
    decide +kernel
  · rw [added.machines, tallies.machines]
    decide +kernel
  · obtain ⟨more, hmore, hgoesOn⟩ := added.sums "lambda".toList
    rw [hgoesOn, hsum, ← Except.ok.inj hmore]
    rfl
  · obtain ⟨more, hmore, hgoesOn⟩ := added.sums "fast".toList
    rw [hgoesOn, hsum', ← Except.ok.inj hmore]
    rfl

/-! ### Line ends

Carriage returns in front of newlines are white space, so the same lines are joined. In a line that
is not joined the carriage return goes away together with its newline. -/

/-- Joining lines with a carriage return before the newline leaves some of these in front of a blank
or a newline, where they make no difference. The text in front is what is joined already. -/
theorem told_unwrapFrom_crlf (t : Text) (dropping : Bool) (before : Text) :
    told (before ++ unwrapFrom dropping (crlf t)) = told (before ++ unwrapFrom dropping t) := by
  induction t generalizing dropping before with
  | nil => rfl
  | cons c t ih =>
    by_cases hc : c = '\n'
    · subst hc
      cases dropping with
      | true => exact ih true before
      | false =>
        rw [unwrapFrom_crlf_newline, unwrapFrom_newline]
        cases hjoin : isContinuation t with
        | false =>
          show told (before ++ '\r' :: '\n' :: unwrapFrom false (crlf t)) =
            told (before ++ '\n' :: unwrapFrom false t)
          rw [told_return]
          simpa using ih false (before ++ ['\n'])
        | true =>
          -- The carriage return is white space in front of the mark, with the blank behind it.
          show told (before ++ '\r' :: ' ' :: unwrapFrom true (crlf t)) =
            told (before ++ ' ' :: unwrapFrom true t)
          obtain ⟨rest, hrest⟩ := exists_unwrapFrom_true (startsWithMark_of_isContinuation hjoin)
          have hsame := ih true (before ++ ['\r', ' '])
          rw [List.append_assoc, List.append_assoc, hrest] at hsame
          rw [hrest]
          exact hsame.trans (@told_indent before rest ['\r', ' '] [' '] (by decide) (by decide)
            (by decide) (by decide))
    · -- Any other character is dropped or stays in both texts.
      rw [crlf_cons_of_ne hc, unwrapFrom_cons_of_ne hc, unwrapFrom_cons_of_ne hc]
      cases hdrop : dropping && isBlank c with
      | true => exact ih true before
      | false => simpa using ih false (before ++ [c])

/-- A report tells the same when its lines end with a carriage return and a newline. The text can be
any: empty lines, wrapped lines, carriage returns that are there already, and a last line without an
end make no difference. -/
theorem ofText_crlf (t : Text) :
    measurements (crlf t) = measurements t ∧ Totals.ofText (crlf t) = Totals.ofText t := by
  have hmeasurements : measurements (crlf t) = measurements t := told_unwrapFrom_crlf t false []
  exact ⟨hmeasurements, by rw [Totals.ofText, hmeasurements, Totals.ofText]⟩

end AsmVariants.Proofs
