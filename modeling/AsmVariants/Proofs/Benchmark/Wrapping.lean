import AsmVariants.Proofs.Benchmark.Measurement
import AsmVariants.Proofs.Text.LineEnd
import AsmVariants.Proofs.Text.Lines

/-!
# `AsmVariants.Proofs.Benchmark.Wrapping`: which newlines go away

`unwrap` goes through a text once, and at a newline it looks ahead: the newline goes away if white
space follows, and behind that the mark. A text `startsWithMark` if it is such a mark that is seen
from a newline in front of the text, or from further in front if there is only white space between.

* `unwrap_append`: two texts can be joined one by one, if the first one ends with a newline and the
  second one does not start with the mark. Without the last condition a newline at the end of the
  first text can go away.
* `unwrap_wrapped`: a wrap becomes one blank.
* `isContinuation_crlf`: carriage returns in front of newlines are white space, and do not change
  which newlines go away.
-/

set_option autoImplicit false

namespace AsmVariants.Proofs

open Benchmark
open Text (isBlank)

/-! ### Looking ahead

At a newline the joining looks past all white space. Whether it finds the mark there does not depend
on where in the white space it starts to look. -/

/-- The mark stands at the start of a text, or behind white space there. -/
def startsWithMark (t : Text) : Bool := timeMark.isPrefixOf (t.dropWhile isBlank)

section

variable {t : Text} {c : Char}

/-- White space at the start is looked through. -/
theorem startsWithMark_cons_of_isBlank (h : isBlank c) :
    startsWithMark (c :: t) = startsWithMark t := by
  rw [startsWithMark, List.dropWhile_cons_of_pos h, startsWithMark]

/-- Where the text does not start with white space, the mark has to be the first thing in it. -/
theorem startsWithMark_cons_of_not_isBlank (h : isBlank c = false) :
    startsWithMark (c :: t) = timeMark.isPrefixOf (c :: t) := by
  rw [startsWithMark, List.dropWhile_cons_of_neg (by simp [h])]

/-- Any amount of white space at the start is looked through. -/
theorem startsWithMark_append {blanks : Text} (h : ∀ c ∈ blanks, isBlank c) :
    startsWithMark (blanks ++ t) = startsWithMark t := by
  rw [startsWithMark, List.dropWhile_append_of_pos h, startsWithMark]

/-- What counts is that there is a mark with nothing but white space in front of it. -/
theorem startsWithMark_iff :
    startsWithMark t ↔
      ∃ blanks rest, (∀ c ∈ blanks, isBlank c) ∧ t = blanks ++ (timeMark ++ rest) := by
  constructor
  · intro h
    obtain ⟨rest, hrest⟩ := List.isPrefixOf_iff_prefix.mp h
    refine ⟨t.takeWhile isBlank, rest, fun c hc => List.mem_takeWhile_imp hc, ?_⟩
    rw [hrest, List.takeWhile_append_dropWhile]
  · intro ⟨blanks, rest, hblanks, ht⟩
    rw [ht, startsWithMark_append hblanks]
    rfl

/-- A newline goes away in front of a blank from which the mark is seen. A mark right behind the
newline, without white space, is none that a line was wrapped at. -/
theorem isContinuation_cons : isContinuation (c :: t) = (isBlank c && startsWithMark t) := by
  show (isBlank c && startsWithMark (c :: t)) = _
  cases hc : isBlank c with
  | false => rfl
  | true => rw [startsWithMark_cons_of_isBlank hc]

/-- A newline that goes away has the mark ahead. This is what makes dropping the white space behind
it stop before the end of the text. -/
theorem startsWithMark_of_isContinuation (h : isContinuation t) : startsWithMark t := by
  rw [isContinuation, Bool.and_eq_true] at h
  exact h.2

end

/-! ### One character after another -/

section

variable {t : Text} {c : Char}

/-- Behind a newline that goes away, white space is dropped. -/
theorem unwrapFrom_true_cons (h : isBlank c) : unwrapFrom true (c :: t) = unwrapFrom true t := by
  rw [unwrapFrom, Bool.true_and, if_pos h]

/-- A newline that goes away leaves one blank, and any other newline stays. -/
theorem unwrapFrom_newline :
    unwrapFrom false ('\n' :: t) =
      if isContinuation t then ' ' :: unwrapFrom true t else '\n' :: unwrapFrom false t := by
  rw [unwrapFrom, Bool.false_and, if_neg Bool.false_ne_true, decide_eq_true rfl, Bool.true_and]

/-- Any other character stays, unless it is white space that is being dropped. With the first
character that stays, dropping is over. -/
theorem unwrapFrom_cons_of_ne (h : c ≠ '\n') (dropping : Bool) :
    unwrapFrom dropping (c :: t) =
      if dropping && isBlank c then unwrapFrom true t else c :: unwrapFrom false t := by
  rw [unwrapFrom, decide_eq_false h, Bool.false_and, if_neg Bool.false_ne_true]

end

/-! ### Two texts with a newline between them

A newline keeps two texts apart, unless it is itself one that goes away. The mark has no newline in
it, so none is found across the newline. -/

section

variable {body rest : Text}

/-- A word without a newline is not found across one. -/
theorem isPrefixOf_append_newline {word : Text} (h : '\n' ∉ word) :
    word.isPrefixOf (body ++ '\n' :: rest) = word.isPrefixOf body := by
  induction word generalizing body with
  | nil => simp
  | cons c word ih =>
    rw [List.mem_cons, not_or] at h
    cases body with
    | nil => simp [List.isPrefixOf, Ne.symm h.1]
    | cons d body => simp [List.isPrefixOf, ih h.2]

variable (hrest : startsWithMark rest = false)

include hrest

/-- A newline hides the mark of the text behind it, if that does not start with one. -/
theorem startsWithMark_append_newline :
    startsWithMark (body ++ '\n' :: rest) = startsWithMark body := by
  induction body with
  | nil => exact (startsWithMark_cons_of_isBlank (by decide)).trans hrest
  | cons c body ih =>
    rw [List.cons_append]
    cases hc : isBlank c with
    | true => rw [startsWithMark_cons_of_isBlank hc, startsWithMark_cons_of_isBlank hc, ih]
    | false =>
      rw [startsWithMark_cons_of_not_isBlank hc, startsWithMark_cons_of_not_isBlank hc]
      -- The mark has no newline, so it stands in front of the newline or not at all.
      exact @isPrefixOf_append_newline (c :: body) rest timeMark (by decide)

/-- Whether a newline goes away is settled in front of the next newline that stays. -/
theorem isContinuation_append_newline :
    isContinuation (body ++ '\n' :: rest) = isContinuation body := by
  cases body with
  | nil => exact isContinuation_cons.trans (by rw [hrest, Bool.and_false]; rfl)
  | cons c body =>
    rw [List.cons_append, isContinuation_cons, isContinuation_cons,
      startsWithMark_append_newline hrest]

/-- White space is dropped in front of a mark only, so none is dropped any more at the newline. -/
theorem unwrapFrom_append_newline {dropping : Bool} (h : dropping → startsWithMark body) :
    unwrapFrom dropping (body ++ '\n' :: rest) =
      unwrapFrom dropping body ++ '\n' :: unwrap rest := by
  induction body generalizing dropping with
  | nil =>
    cases dropping with
    -- At the end of the text there is no mark ahead.
    | true => exact nomatch h rfl
    | false =>
      have hstays : isContinuation rest = false := by
        cases hrest' : isContinuation rest with
        | false => rfl
        | true => exact nomatch hrest.symm.trans (startsWithMark_of_isContinuation hrest')
      simp [unwrapFrom, hstays, unwrap]
  | cons c body ih =>
    rw [List.cons_append, unwrapFrom, unwrapFrom, isContinuation_append_newline hrest]
    by_cases hdrop : (dropping && isBlank c) = true
    · rw [if_pos hdrop, if_pos hdrop]
      -- The mark that is ahead of white space is ahead of what comes behind it.
      rw [Bool.and_eq_true] at hdrop
      refine ih fun _ => ?_
      rw [← startsWithMark_cons_of_isBlank hdrop.2]
      exact h hdrop.1
    · rw [if_neg hdrop, if_neg hdrop]
      by_cases hjoin : (c = '\n' && isContinuation body) = true
      · rw [if_pos hjoin, if_pos hjoin]
        rw [Bool.and_eq_true] at hjoin
        rw [ih fun _ => startsWithMark_of_isContinuation hjoin.2, List.cons_append]
      · rw [if_neg hjoin, if_neg hjoin, @ih false nofun, List.cons_append]

/-- Two texts with a newline between them are joined one by one. -/
theorem unwrap_append_newline :
    unwrap (body ++ '\n' :: rest) = unwrap body ++ '\n' :: unwrap rest :=
  @unwrapFrom_append_newline body rest hrest false nofun

end

/-- A newline at the end of a text stays. -/
theorem endsLine_unwrap {t : Text} (h : EndsLine t) : EndsLine (unwrap t) := by
  cases h with
  | nil => exact .nil
  | newline body =>
    rw [unwrap_append_newline rfl]
    exact .newline _

/-- No newline that goes away has its mark in the second text, so the texts are joined one by
one. -/
theorem unwrap_append {before t : Text} (hbefore : EndsLine before)
    (ht : startsWithMark t = false) : unwrap (before ++ t) = unwrap before ++ unwrap t := by
  cases hbefore with
  | nil => rfl
  | newline body =>
    rw [List.append_assoc, List.singleton_append, unwrap_append_newline ht,
      unwrap_append_newline rfl, List.append_assoc]
    rfl

/-! ### What a wrap becomes -/

section

variable {gap t : Text}

/-- Where there is no newline, nothing changes. -/
theorem unwrap_append_of_notMem {body : Text} (h : '\n' ∉ body) :
    unwrap (body ++ t) = body ++ unwrap t := by
  induction body with
  | nil => rfl
  | cons c body ih =>
    rw [List.mem_cons, not_or] at h
    show unwrapFrom false (c :: (body ++ t)) = c :: (body ++ unwrap t)
    rw [unwrapFrom_cons_of_ne (Ne.symm h.1), ← ih h.2]
    rfl

/-- White space is dropped up to the mark. -/
theorem unwrapFrom_true_append (hgap : ∀ c ∈ gap, isBlank c) :
    unwrapFrom true (gap ++ (timeMark ++ t)) = timeMark ++ unwrap t := by
  induction gap with
  | nil => rfl
  | cons c gap ih =>
    rw [List.forall_mem_cons] at hgap
    rw [List.cons_append, unwrapFrom_true_cons hgap.1, ih hgap.2]

/-- The white space that is dropped ends at a mark, so what remains begins with the mark, whatever
amount of white space there was. -/
theorem exists_unwrapFrom_true (h : startsWithMark t) :
    ∃ rest, unwrapFrom true t = timeMark ++ rest := by
  obtain ⟨blanks, rest, hblanks, rfl⟩ := startsWithMark_iff.mp h
  exact ⟨unwrap rest, unwrapFrom_true_append hblanks⟩

/-- A newline and all white space behind it become one blank. -/
theorem unwrap_wrapped (hgap : IsRun isBlank gap) :
    unwrap ('\n' :: (gap ++ (timeMark ++ t))) = ' ' :: (timeMark ++ unwrap t) := by
  have hmark : startsWithMark (gap ++ (timeMark ++ t)) :=
    startsWithMark_iff.mpr ⟨gap, t, hgap.all, rfl⟩
  -- There is at least one blank in front of the mark, so the newline is one that is joined.
  have hjoin : isContinuation (gap ++ (timeMark ++ t)) = true := by
    cases gap with
    | nil => exact absurd rfl hgap.ne_nil
    | cons c gap =>
      have hblank : isBlank c = true := hgap.all c List.mem_cons_self
      rw [List.cons_append, startsWithMark_cons_of_isBlank hblank] at hmark
      rw [List.cons_append, isContinuation_cons, hblank, hmark]
      rfl
  show unwrapFrom false ('\n' :: (gap ++ (timeMark ++ t))) = ' ' :: (timeMark ++ unwrap t)
  rw [unwrapFrom_newline, if_pos hjoin, unwrapFrom_true_append hgap.all]

end

/-! ### Carriage returns in front of newlines -/

section

variable {t : Text}

/-- Only newlines are changed. -/
theorem crlf_cons_of_ne {c : Char} (h : c ≠ '\n') : crlf (c :: t) = c :: crlf t := by
  rw [crlf, List.flatMap_cons, if_neg h]
  rfl

/-- A newline has a carriage return in front of it. -/
theorem crlf_newline_cons : crlf ('\n' :: t) = '\r' :: '\n' :: crlf t := rfl

/-- A word without line ends is found where it was. -/
theorem isPrefixOf_crlf {word : Text} (hnewline : '\n' ∉ word) (hreturn : '\r' ∉ word) :
    word.isPrefixOf (crlf t) = word.isPrefixOf t := by
  induction word generalizing t with
  | nil => simp
  | cons c word ih =>
    rw [List.mem_cons, not_or] at hnewline hreturn
    cases t with
    | nil => rfl
    | cons d t =>
      by_cases hd : d = '\n'
      · subst hd
        -- The word goes on with neither of the two, so both texts differ from it here.
        have hne : (c == '\n') = false := beq_false_of_ne (Ne.symm hnewline.1)
        have hne' : (c == '\r') = false := beq_false_of_ne (Ne.symm hreturn.1)
        simp [crlf_newline_cons, List.isPrefixOf, hne, hne']
      · rw [crlf_cons_of_ne hd]
        simp [List.isPrefixOf, ih hnewline.2 hreturn.2]

/-- A carriage return is white space as the newline behind it is, so the mark is seen through both.
-/
theorem startsWithMark_crlf : startsWithMark (crlf t) = startsWithMark t := by
  induction t with
  | nil => rfl
  | cons c t ih =>
    by_cases hc : c = '\n'
    · subst hc
      -- One more blank in front of the mark is one that is skipped.
      have hnewline : isBlank '\n' = true := by decide
      have hreturn : isBlank '\r' = true := by decide
      rw [crlf_newline_cons, startsWithMark_cons_of_isBlank hreturn,
        startsWithMark_cons_of_isBlank hnewline, startsWithMark_cons_of_isBlank hnewline, ih]
    · rw [crlf_cons_of_ne hc]
      cases hblank : isBlank c with
      | true =>
        rw [startsWithMark_cons_of_isBlank hblank, startsWithMark_cons_of_isBlank hblank, ih]
      | false =>
        rw [startsWithMark_cons_of_not_isBlank hblank, startsWithMark_cons_of_not_isBlank hblank,
          ← crlf_cons_of_ne hc]
        exact isPrefixOf_crlf (by decide) (by decide)

/-- The same newlines go away, whichever way lines end. -/
theorem isContinuation_crlf : isContinuation (crlf t) = isContinuation t := by
  cases t with
  | nil => rfl
  | cons c t =>
    by_cases hc : c = '\n'
    · subst hc
      have hnewline : isBlank '\n' = true := by decide
      have hreturn : isBlank '\r' = true := by decide
      rw [crlf_newline_cons, isContinuation_cons, isContinuation_cons,
        startsWithMark_cons_of_isBlank hnewline, startsWithMark_crlf, hnewline, hreturn]
    · rw [crlf_cons_of_ne hc, isContinuation_cons, isContinuation_cons, startsWithMark_crlf]

/-- The carriage return stays, whatever becomes of the newline. -/
theorem unwrapFrom_crlf_newline :
    unwrapFrom false (crlf ('\n' :: t)) =
      '\r' :: if isContinuation t then ' ' :: unwrapFrom true (crlf t)
        else '\n' :: unwrapFrom false (crlf t) := by
  rw [crlf_newline_cons, unwrapFrom_cons_of_ne (by decide), unwrapFrom_newline, isContinuation_crlf]
  rfl

end

end AsmVariants.Proofs
