import AsmVariants.Text.Basic
import Mathlib.Data.List.Basic
import Mathlib.Data.List.Induction

/-!
# `AsmVariants.Proofs.Text.Lines`: lines put together and cut apart

`Text.flatten_splitLines` says that cutting a text into lines loses nothing. This module has the
other direction. Lines can be put together in such a way that a cut gives other ones: a newline in
the middle of a line ends it early, and a line without a newline runs into the next. `LineByLine`
rules both out. The lines of a text have it (`lineByLine_splitLines`), and lines that have it are
given back by the cut, except that an empty line leaves no trace (`splitLines_flatten`).

The first two lemmas say what the cut does at the front of a text: a text without a newline is one
line, and a newline ends the line in front of it. Where two texts are put together and the first one
`EndsLine`, their lines stay as they are (`splitLines_append`).
-/

set_option autoImplicit false

namespace AsmVariants.Proofs

open Text (splitLines)

/-- A text without a newline is one line, if there is anything in it. -/
theorem splitLines_of_notMem {body : Text} (h : '\n' ∉ body) :
    splitLines body = if body = [] then [] else [body] := by
  induction body with
  | nil => rfl
  | cons c body ih =>
    rw [List.mem_cons, not_or] at h
    rw [splitLines, if_neg (Ne.symm h.1), ih h.2, if_neg (List.cons_ne_nil c body)]
    by_cases hbody : body = []
    · rw [if_pos hbody, hbody]
    · rw [if_neg hbody]

/-- The first newline ends the first line. -/
theorem splitLines_append_newline {body : Text} (h : '\n' ∉ body) (rest : Text) :
    splitLines (body ++ '\n' :: rest) = (body ++ ['\n']) :: splitLines rest := by
  induction body with
  | nil => rfl
  | cons c body ih =>
    rw [List.mem_cons, not_or] at h
    rw [List.cons_append, splitLines, if_neg (Ne.symm h.1), ih h.2]
    rfl

/-- Texts without a newline are lines when each has a newline put behind it. -/
theorem splitLines_flatMap_newline {bodies : List Text} (h : ∀ body ∈ bodies, '\n' ∉ body) :
    splitLines (bodies.flatMap (· ++ ['\n'])) = bodies.map (· ++ ['\n']) := by
  induction bodies with
  | nil => rfl
  | cons body bodies ih =>
    rw [List.forall_mem_cons] at h
    rw [List.flatMap_cons, List.append_assoc, List.singleton_append, splitLines_append_newline h.1,
      ih h.2, List.map_cons]

/-- A text with a new line behind it, because it is empty or ends with a newline. -/
inductive EndsLine : Text → Prop
  | nil : EndsLine []
  | newline (body : Text) : EndsLine (body ++ ['\n'])

/-- The lines in front of a newline do not depend on what is behind it. -/
theorem splitLines_append {before : Text} (h : EndsLine before) (t : Text) :
    splitLines (before ++ t) = splitLines before ++ splitLines t := by
  cases h with
  | nil => rfl
  | newline body =>
    induction body with
    | nil => rfl
    | cons c body ih =>
      rw [List.cons_append, List.cons_append, splitLines, splitLines, ih]
      split
      · rfl
      · -- The character goes to the front of the first line, and there is one.
        cases hlines : splitLines (body ++ ['\n']) with
        | nil =>
          have hflatten := Text.flatten_splitLines (body ++ ['\n'])
          simp [hlines] at hflatten
        | cons line lines => rfl

/-- Behind the last newline of a text is a line without one, or nothing. -/
theorem exists_endsLine_append (t : Text) :
    ∃ before line, t = before ++ line ∧ EndsLine before ∧ '\n' ∉ line := by
  induction t using List.reverseRecOn with
  | nil => exact ⟨[], [], rfl, .nil, List.not_mem_nil⟩
  | append_singleton t c ih =>
    obtain ⟨before, line, rfl, hbefore, hline⟩ := ih
    by_cases hc : c = '\n'
    · subst hc
      exact ⟨(before ++ line) ++ ['\n'], [], by simp, .newline _, List.not_mem_nil⟩
    · exact ⟨before, line ++ [c], by simp, hbefore, by simp [hline, Ne.symm hc]⟩

/-- Lines that stay apart when they are put together. -/
inductive LineByLine : List Text → Prop
  | nil : LineByLine []
  /-- The last line may lack its newline. -/
  | last {body : Text} (h : '\n' ∉ body) : LineByLine [body]
  /-- A line with its newline, and no other one, can stand in front. -/
  | cons {body : Text} {lines : List Text} (h : '\n' ∉ body) (rest : LineByLine lines) :
      LineByLine ((body ++ ['\n']) :: lines)

/-- The lines of a text stay apart. -/
theorem lineByLine_splitLines (t : Text) : LineByLine (splitLines t) := by
  induction t with
  | nil => exact .nil
  | cons c t ih =>
    rw [splitLines]
    split
    · next hc =>
      subst hc
      exact .cons List.not_mem_nil ih
    · next hc =>
      have hcons : ∀ {body : Text}, '\n' ∉ body → '\n' ∉ c :: body :=
        List.not_mem_cons_of_ne_of_not_mem (Ne.symm hc)
      -- The character goes to the front of the first line, if there is one.
      generalize splitLines t = lines at ih ⊢
      cases ih with
      | nil => exact .last (hcons List.not_mem_nil)
      | last hbody => exact .last (hcons hbody)
      | cons hbody rest => exact .cons (hcons hbody) rest

/-- Lines that stay apart are given back by the cut, but for an empty one. -/
theorem splitLines_flatten {lines : List Text} (h : LineByLine lines) :
    splitLines lines.flatten = lines.filter (· ≠ []) := by
  induction h with
  | nil => rfl
  | @last body hbody =>
    rw [List.flatten_singleton, splitLines_of_notMem hbody]
    by_cases hempty : body = []
    · simp [hempty]
    · simp [hempty]
  | @cons body lines hbody _ ih =>
    rw [List.flatten_cons, List.append_assoc, List.singleton_append,
      splitLines_append_newline hbody, ih, List.filter_cons_of_pos (by simp)]

end AsmVariants.Proofs
