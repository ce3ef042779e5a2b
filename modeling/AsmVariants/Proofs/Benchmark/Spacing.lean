import AsmVariants.Proofs.Benchmark.Measurement
import AsmVariants.Proofs.List

/-!
# `AsmVariants.Proofs.Benchmark.Spacing`: what does not matter on a line

White space in front of the mark separates it from the name, and what stands behind the closing
bracket is not read. So a line tells the same measurement with any other white space in front of a
mark (`ofLine?_indent`), and with anything behind it that has no closing bracket
(`ofLine?_append`).

The mark in `ofLine?_indent` can stand anywhere on the line, and it need not be the one that is
read. But the mark that is read has the first colon of the line, and there is no other colon up to
the closing bracket. So any other mark stands behind the bracket, or the line is no measurement.
`Framed` has the two parts of a measurement that count, with these facts about them.
-/

set_option autoImplicit false

namespace AsmVariants.Proofs

open Benchmark
open Text (isBlank isDecimalDigit isWordChar)

/-! ### Colons

The mark ends with a colon, and no other part of a measurement has one. So the place of the mark can
be told from the colons alone. -/

section

variable {test : Char → Bool} {t number unit : Text}

/-- A character of another class is nowhere in a run. -/
theorem IsRun.notMem {c : Char} (h : IsRun test t) (hc : test c = false) : c ∉ t := by
  intro hmem
  have htest : test c = true := h.all c hmem
  rw [hc] at htest
  cases htest

/-- Two characters differ if one of them is white space and the other is not. -/
theorem ne_of_isBlank {c d : Char} (hc : isBlank c = false) (hd : isBlank d) : c ≠ d := by
  rintro rfl
  exact absurd hd (by simp [hc])

/-- A number has no colon. -/
theorem IsNumber.colon_notMem (h : IsNumber t) : ':' ∉ t := by
  have hdigit : isDecimalDigit ':' = false := by decide
  cases h with
  | whole hdigits => exact hdigits.notMem hdigit
  | fraction hdigits hplaces => simp [hdigits.notMem hdigit, hplaces.notMem hdigit]

/-- A quantity has no colon, so there is none between the brackets. -/
theorem IsQuantity.colon_notMem (h : IsQuantity number unit t) : ':' ∉ t := by
  cases h with
  | @intro blank hnumber hblank hunit =>
    have hword : ':' ∉ unit := hunit.notMem (by decide)
    have hne : ':' ≠ blank := ne_of_isBlank (by decide) hblank
    simp [hnumber.colon_notMem, hne, hword]

end

/-! ### The parts of a measurement that count -/

/-- A name, and what can stand between the mark and the closing bracket for it to be the name of the
measurement. Any white space can stand in front of the mark, and anything behind the bracket. -/
structure Framed (m : Measurement) (name interval : Text) : Prop where
  /-- The first colon is that of the mark. -/
  name_colon : ':' ∉ name
  /-- The white space in front of the mark begins where the name ends. -/
  name_blank : ∀ c ∈ name, isBlank c = false
  /-- The next colon is behind the bracket. -/
  interval_colon : ':' ∉ interval
  measures : ∀ {indent : Text}, IsRun isBlank indent → ∀ rest,
    Measures (name ++ (indent ++ (timeMark ++ (interval ++ ']' :: rest)))) m

/-- A measurement has such parts. -/
theorem exists_framed {line : Text} {m : Measurement} (h : Measures line m) :
    ∃ name indent interval rest, Framed m name interval ∧ IsRun isBlank indent ∧
      line = name ++ (indent ++ (timeMark ++ (interval ++ ']' :: rest))) := by
  cases h with
  | @intro bench indent padding lower _ _ estimate upper _ _ rest first second hmachine hbench
      hindent hpadding hlower hfirst hestimate hsecond hupper hline =>
    let interval := padding ++ '[' :: (lower ++ first :: (estimate ++ second :: upper))
    -- No character of a name is white space, so the name ends where the indent begins.
    have hword : ∀ c, isWordChar c → isBlank c = false := by
      intro c hc
      cases hblank : isBlank c with
      | false => rfl
      | true => exact nomatch hc.symm.trans (isWordChar_of_isBlank hblank)
    refine ⟨m.machine ++ '/' :: bench, indent, interval, rest, ⟨?_, ?_, ?_, ?_⟩, hindent, ?_⟩
    · have hcolon : isWordChar ':' = false := by decide
      simp [hmachine.notMem hcolon, hbench.notMem hcolon]
    · intro c hc
      rw [List.mem_append, List.mem_cons] at hc
      rcases hc with hc | rfl | hc
      · exact hword c (hmachine.all c hc)
      · decide
      · exact hword c (hbench.all c hc)
    · have hcolon : isBlank ':' = false := by decide
      simp [interval, hpadding.notMem hcolon, hlower.colon_notMem, ne_of_isBlank hcolon hfirst,
        hestimate.colon_notMem, ne_of_isBlank hcolon hsecond, hupper.colon_notMem]
    · intro indent' hindent' rest'
      refine @Measures.intro _ _ _ _ _ _ _ _ _ _ _ _ rest' _ _ hmachine hbench hindent' hpadding
        hlower hfirst hestimate hsecond hupper ?_
      simp [interval, timeMark]
    · simpa [interval, timeMark] using hline

/-! ### White space in front of a mark, and what stands behind the line

A line is taken apart into the parts that count and put together again with other white space, or
with more behind it. It can be done in both directions, so the two lines tell the same. -/

/-- With a text that has no bracket behind it, a line goes as far as the bracket by itself. -/
theorem exists_of_append_eq_append_bracket {line tail front rest : Text} (htail : ']' ∉ tail)
    (h : line ++ tail = front ++ ']' :: rest) : ∃ rest', line = front ++ ']' :: rest' := by
  rcases append_eq_append_cons_iff.mp h with ⟨rest', hline, -⟩ | ⟨e, -, htail'⟩
  · exact ⟨rest', hline⟩
  · exact absurd (by simp [htail'] : ']' ∈ tail) htail

/-- White space at the end of a text begins behind the name in it. -/
theorem exists_of_name_append {name indent before gap : Text}
    (hname : ∀ c ∈ name, isBlank c = false) (hgap : ∀ c ∈ gap, isBlank c)
    (h : name ++ indent = before ++ gap) :
    ∃ first, before = name ++ first ∧ indent = first ++ gap := by
  rcases List.append_eq_append_iff.mp h with ⟨e, hbefore, hindent⟩ | ⟨e, hbefore, hindent⟩
  · exact ⟨e, hbefore, hindent⟩
  · cases e with
    | nil => exact ⟨[], by simpa using hbefore.symm, by simpa using hindent.symm⟩
    | cons c e =>
      have hblank : isBlank c = true := hgap c (by simp [hindent])
      have hnot : isBlank c = false := hname c (by simp [hbefore])
      exact nomatch hblank.symm.trans hnot

/-- Where there is no colon up to a bracket, a mark can only be behind the bracket. -/
theorem exists_of_mark_behind {before gap rest interval behind : Text} (hgap : IsRun isBlank gap)
    (hinterval : ':' ∉ interval)
    (h : before ++ (gap ++ (timeMark ++ rest)) = interval ++ ']' :: behind) :
    ∃ behind', before = interval ++ ']' :: behind' := by
  have hjoined : (before ++ (gap ++ timeMark)) ++ rest = interval ++ ']' :: behind := by
    simp only [List.append_assoc, h]
  rcases append_eq_append_cons_iff.mp hjoined with ⟨e, hbracket, -⟩ | ⟨e, hcolon, -⟩
  · have hblank : ']' ∉ gap := hgap.notMem (by decide)
    have hletters : ']' ∉ timeMark := by decide
    exact exists_of_append_eq_append_bracket (by simp [hblank, hletters]) hbracket
  · exact absurd (by simp [hcolon, timeMark]) hinterval

/-- Reading a line and being written as a measurement are the same. -/
theorem ofLine?_eq_some_iff {line : Text} {m : Measurement} :
    Measurement.ofLine? line = some m ↔ Measures line m :=
  ⟨measures_of_ofLine?, ofLine?_of_measures⟩

section

variable {m : Measurement} {line tail before gap gap' rest : Text}

/-- What is behind the closing bracket makes no difference, if there is no other bracket that could
take its place. -/
theorem measures_append (htail : ']' ∉ tail) : Measures (line ++ tail) m ↔ Measures line m := by
  constructor
  · intro h
    obtain ⟨name, indent, interval, rest, hframed, hindent, hline⟩ := exists_framed h
    have hbracket : line ++ tail =
        (name ++ (indent ++ (timeMark ++ interval))) ++ ']' :: rest := by simp [hline]
    obtain ⟨rest', rfl⟩ := exists_of_append_eq_append_bracket htail hbracket
    simpa using hframed.measures hindent rest'
  · intro h
    obtain ⟨name, indent, interval, rest, hframed, hindent, rfl⟩ := exists_framed h
    simpa using hframed.measures hindent (rest ++ tail)

/-- White space in front of the mark can be replaced by any other. The mark is found by its colon,
which is the first on the line. -/
theorem measures_indent (hgap : IsRun isBlank gap) (hgap' : IsRun isBlank gap')
    (h : Measures (before ++ (gap ++ (timeMark ++ rest))) m) :
    Measures (before ++ (gap' ++ (timeMark ++ rest))) m := by
  obtain ⟨name, indent, interval, behind, hframed, hindent, hline⟩ := exists_framed h
  have hmark : timeMark = "time".toList ++ [':'] := rfl
  -- The first colon of the line is that of the mark that is read.
  have hcolon : before ++ (gap ++ (timeMark ++ rest)) =
      (name ++ (indent ++ "time".toList)) ++ ':' :: (interval ++ ']' :: behind) := by
    rw [hline, hmark]
    simp only [List.append_assoc, List.singleton_append]
  rcases append_eq_append_cons_iff.mp hcolon with ⟨e, hbefore, hbehind⟩ | ⟨e, hname, hgapMark⟩
  · -- The other mark is not in front of the bracket, because it has a colon. So it is behind it.
    obtain ⟨behind', rfl⟩ := exists_of_mark_behind hgap hframed.interval_colon hbehind.symm
    have hmeasures := hframed.measures hindent (behind' ++ (gap' ++ (timeMark ++ rest)))
    rw [hbefore]
    simpa [hmark] using hmeasures
  · -- The other mark is the one that is read, and its white space ends as that of this one does.
    have hnone : ':' ∉ name ++ (indent ++ "time".toList) := by
      simp [hframed.name_colon, hindent.notMem (by decide : isBlank ':' = false)]
    have he : ':' ∉ e := fun hmem => hnone (hname ▸ List.mem_append_right before hmem)
    have hgapLetters : ':' ∉ gap ++ "time".toList := by
      simp [hgap.notMem (by decide : isBlank ':' = false)]
    have hsame : (gap ++ "time".toList) ++ ':' :: rest =
        e ++ ':' :: (interval ++ ']' :: behind) := by
      rw [← hgapMark, hmark]
      simp only [List.append_assoc, List.singleton_append]
    obtain ⟨rfl, rfl⟩ := append_cons_inj_first hgapLetters he hsame
    have hblanks : name ++ indent = before ++ gap := by
      rw [← List.append_assoc, ← List.append_assoc] at hname
      exact List.append_cancel_right hname
    obtain ⟨first, rfl, rfl⟩ := exists_of_name_append hframed.name_blank hgap.all hblanks
    have hindent' : IsRun isBlank (first ++ gap') := by
      refine ⟨by simp [hgap'.ne_nil], ?_⟩
      rw [List.forall_mem_append]
      exact ⟨fun c hc => hindent.all c (List.mem_append_left gap hc), hgap'.all⟩
    simpa using hframed.measures hindent' behind

/-- How much white space is in front of a mark, and which, makes no difference. -/
theorem ofLine?_indent (hgap : IsRun isBlank gap) (hgap' : IsRun isBlank gap') :
    Measurement.ofLine? (before ++ (gap ++ (timeMark ++ rest))) =
      Measurement.ofLine? (before ++ (gap' ++ (timeMark ++ rest))) := by
  ext m
  rw [ofLine?_eq_some_iff, ofLine?_eq_some_iff]
  exact ⟨measures_indent hgap hgap', measures_indent hgap' hgap⟩

/-- What has no closing bracket makes no difference behind a line. -/
theorem ofLine?_append (htail : ']' ∉ tail) :
    Measurement.ofLine? (line ++ tail) = Measurement.ofLine? line := by
  ext m
  rw [ofLine?_eq_some_iff, ofLine?_eq_some_iff, measures_append htail]

end

end AsmVariants.Proofs
