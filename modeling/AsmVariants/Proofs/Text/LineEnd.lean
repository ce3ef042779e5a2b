import AsmVariants.Text.Basic
import Mathlib.Data.List.Forall2

/-!
# `AsmVariants.Proofs.Text.LineEnd`: a carriage return before each newline

`crlf` converts the line ends of a text. It does not look at what stands before a newline, so a
carriage return that is there already becomes one of two. `Converted` says the same of a single
line, by its body: what the line holds besides its newline stays, and the line end changes if there
is one. `converted_splitLines` says that converting a text converts each of its lines, and
`crlf_flatten` that it does no more.
-/

set_option autoImplicit false

namespace AsmVariants.Proofs

/-- The text with a carriage return put in front of each newline. -/
def crlf (t : Text) : Text := t.flatMap fun c => if c = '\n' then ['\r', '\n'] else [c]

/-- The second line is the first with its line end converted. -/
inductive Converted : Text → Text → Prop
  /-- Where there is no newline, nothing changes. -/
  | unterminated {body : Text} (h : '\n' ∉ body) : Converted body body
  /-- The newline at the end gets a carriage return. -/
  | terminated {body : Text} (h : '\n' ∉ body) :
      Converted (body ++ ['\n']) (body ++ ['\r', '\n'])

/-- A text without newlines is kept. -/
theorem crlf_of_notMem {t : Text} (h : '\n' ∉ t) : crlf t = t := by
  have hkeep : ∀ c ∈ t, (if c = '\n' then ['\r', '\n'] else [c]) = [c] := by
    intro c hc
    refine if_neg ?_
    rintro rfl
    exact h hc
  rw [crlf, List.flatMap_congr hkeep, List.flatMap_singleton']

/-- Converting a text comes to the same as converting a line, where the text is one line. -/
theorem Converted.crlf_eq {line line' : Text} (h : Converted line line') : crlf line = line' := by
  cases h with
  | unterminated hbody => exact crlf_of_notMem hbody
  | @terminated body hbody =>
    rw [crlf, List.flatMap_append]
    exact congrArg (· ++ ['\r', '\n']) (crlf_of_notMem hbody)

/-- A line has its newline at the end, if it has one. -/
theorem Converted.newline_notMem_dropLast {line line' : Text} (h : Converted line line') :
    '\n' ∉ line.dropLast := by
  cases h with
  | unterminated hbody => exact fun hmem => hbody (List.dropLast_subset _ hmem)
  | terminated hbody => rwa [List.dropLast_concat]

/-- A character other than the newline can stand in front. -/
theorem Converted.cons {c : Char} {line line' : Text} (hc : c ≠ '\n') (h : Converted line line') :
    Converted (c :: line) (c :: line') := by
  have hcons : ∀ {body : Text}, '\n' ∉ body → '\n' ∉ c :: body := by
    intro body hbody
    rw [List.mem_cons, not_or]
    exact ⟨Ne.symm hc, hbody⟩
  cases h with
  | unterminated hbody => exact .unterminated (hcons hbody)
  | terminated hbody => exact .terminated (hcons hbody)

/-- Converting a text converts each of its lines. -/
theorem converted_splitLines (t : Text) :
    List.Forall₂ Converted t.splitLines (crlf t).splitLines := by
  induction t with
  | nil => exact .nil
  | cons c t ih =>
    by_cases hc : c = '\n'
    · subst hc
      have hterminated : Converted ['\n'] ['\r', '\n'] := .terminated List.not_mem_nil
      exact .cons hterminated ih
    · have hcrlf : crlf (c :: t) = c :: crlf t := by
        rw [crlf, List.flatMap_cons, if_neg hc]
        rfl
      rw [hcrlf, Text.splitLines, Text.splitLines, if_neg hc, if_neg hc]
      -- The character goes to the front of the first line of both texts, if there is one.
      generalize Text.splitLines t = lines, Text.splitLines (crlf t) = lines' at ih ⊢
      cases ih with
      | nil =>
        have hsingle : '\n' ∉ [c] := by simpa using Ne.symm hc
        exact .cons (.unterminated hsingle) .nil
      | cons hline hlines => exact .cons (hline.cons hc) hlines

/-- A line of a text has no newline but at its end. -/
theorem newline_notMem_dropLast {t line : Text} (h : line ∈ Text.splitLines t) :
    '\n' ∉ line.dropLast := by
  obtain ⟨i, hi, rfl⟩ := List.getElem_of_mem h
  have hconverted := converted_splitLines t
  exact (hconverted.get hi (hconverted.length_eq ▸ hi)).newline_notMem_dropLast

/-- Lines that are converted make up a text that is converted. -/
theorem crlf_flatten {lines lines' : List Text} (h : List.Forall₂ Converted lines lines') :
    crlf lines.flatten = lines'.flatten := by
  induction h with
  | nil => rfl
  | cons hline _ ih =>
    rw [List.flatten_cons, List.flatten_cons, ← ih, ← hline.crlf_eq]
    exact List.flatMap_append

end AsmVariants.Proofs
