import AsmVariants.Proofs.Candidates
import AsmVariants.Proofs.Expansion.Replay
import AsmVariants.Proofs.Text.LineEnd
import AsmVariants.Proofs.Text.Lines

/-!
# `AsmVariants.Proofs.Expansion.LineShape`: an expansion keeps the shape of the lines

Values are cut out of lines and put into other lines, where later passes can find tokens in them.
This module shows that no chain of passes brings a semicolon or a newline into a line. So comment
lines stay comment lines and as they are, instruction lines stay instruction lines, no line falls
apart or runs into the next, and no terminator is lost.

`Kept` says what a line of a template and the same line of a variant have in common, and
`Shaped` says it of all lines, and of the values that were chosen. The two hold each other up: a
value is clean because it was read off a kept line (`cleanValue_of_mem_above?`), and a line is kept
because a clean value was put into it (`kept_fillLine`). `shaped_step` is the step and
`lines_kept_of_passes` the run. It holds after any number of passes, with any limit, and nothing
is assumed of the candidates.
-/

set_option autoImplicit false

namespace AsmVariants.Proofs

open Expansion (passes)
open Placeholder (startsWithDigit)

/-- What a line of a template and the same line of a variant have in common:

- `comment`: a line with a semicolon is kept as it is;
- `instruction`: a line without one gets none;
- `newline_notMem`: there is no newline but at the end;
- `newline_iff`: there is one at the end if the template has it there;
- `crlf`: a carriage return in front of it is kept. -/
structure Kept (line filled : Text) : Prop where
  comment : ';' ∈ line → filled = line
  instruction : ';' ∉ line → ';' ∉ filled
  newline_notMem : '\n' ∉ filled.dropLast
  newline_iff : filled.getLast? = some '\n' ↔ line.getLast? = some '\n'
  crlf : ['\r', '\n'] <:+ line → ['\r', '\n'] <:+ filled

/-- A value that can be put into a line: no line and no list is cut at any of its characters. -/
def CleanValue (value : Text) : Prop := ';' ∉ value ∧ ',' ∉ value ∧ '\n' ∉ value

/-- All lines of a variant are kept, and all its values are clean. -/
structure Shaped (lines : List Text) (variant : Variant) : Prop where
  lines_kept : List.Forall₂ Kept lines variant.lines
  values_clean : ∀ choice ∈ variant.choices, CleanValue choice.value

/-! ### The lines of a template -/

/-- A line is kept where nothing is done to it. -/
theorem kept_refl {line : Text} (h : '\n' ∉ line.dropLast) : Kept line line where
  comment _ := rfl
  instruction := id
  newline_notMem := h
  newline_iff := Iff.rfl
  crlf := id

/-- The template has its own shape. -/
theorem shaped_ofTemplate (text : Text) :
    Shaped (Template.ofText text).lines (Variant.ofTemplate (Template.ofText text)) where
  lines_kept := List.forall₂_same.mpr fun _ hline => kept_refl (newline_notMem_dropLast hline)
  values_clean _ h := nomatch h

/-- Lines that stay apart stay apart when they are kept. -/
theorem lineByLine_of_kept {lines filled : List Text} (h : LineByLine lines)
    (hkept : List.Forall₂ Kept lines filled) : LineByLine filled := by
  induction h generalizing filled with
  | nil =>
    cases hkept
    exact .nil
  | @last body hbody =>
    obtain ⟨line, rest, hline, hrest, rfl⟩ := List.forall₂_cons_left_iff.mp hkept
    obtain rfl : rest = [] := List.forall₂_nil_left_iff.mp hrest
    -- There is no newline at the end, and none before it.
    have hlast : line.getLast? ≠ some '\n' := fun h =>
      hbody (List.mem_of_getLast? (hline.newline_iff.mp h))
    exact .last fun hmem => hline.newline_notMem
      (List.mem_dropLast_of_mem_of_ne_getLast? hmem (Ne.symm hlast))
  | @cons body lines hbody _ ih =>
    obtain ⟨line, rest, hline, hrest, rfl⟩ := List.forall₂_cons_left_iff.mp hkept
    obtain ⟨front, rfl⟩ :=
      List.getLast?_eq_some_iff.mp (hline.newline_iff.mpr List.getLast?_concat)
    have hfront := hline.newline_notMem
    rw [List.dropLast_concat] at hfront
    exact .cons hfront (ih hrest)

/-! ### Filling in a line

Only instructions are filled in, and what comes into them is the value. So a kept line stays kept if
the value has neither a semicolon nor a newline. -/

/-- A replacement by a value without a newline leaves the newline of a line where it is. -/
theorem newline_replace {p : Placeholder} {value t : Text} (hvalue : '\n' ∉ value)
    (ht : '\n' ∉ t.dropLast) :
    '\n' ∉ (p.replace value t).dropLast ∧
      ((p.replace value t).getLast? = some '\n' ↔ t.getLast? = some '\n') := by
  by_cases hlast : t.getLast? = some '\n'
  · -- A replacement stops short of a newline at the end.
    obtain ⟨body, rfl⟩ := List.getLast?_eq_some_iff.mp hlast
    rw [List.dropLast_concat] at ht
    rw [replace_append_right (by decide) rfl p value body, List.dropLast_concat]
    refine ⟨fun hmem => ?_, by simp⟩
    exact (mem_of_mem_replace hmem).elim hvalue ht
  · -- There is no newline at all, and the value brings none.
    have hnone : '\n' ∉ t := fun hmem =>
      ht (List.mem_dropLast_of_mem_of_ne_getLast? hmem (Ne.symm hlast))
    have hfilled : '\n' ∉ p.replace value t := fun hmem =>
      (mem_of_mem_replace hmem).elim hvalue hnone
    exact ⟨fun hmem => hfilled (List.dropLast_subset _ hmem),
      fun h => absurd (List.mem_of_getLast? h) hfilled, fun h => absurd h hlast⟩

/-- A kept line stays one when a clean value is put into it. -/
theorem kept_fillLine {line filled value : Text} (p : Placeholder) (h : Kept line filled)
    (hvalue : CleanValue value) : Kept line (fillLine p value filled) := by
  rw [fillLine_eq]
  split
  · exact h
  · next hfilled =>
    -- A line with a semicolon has been kept with it, so this one has none in the template.
    have hline : ';' ∉ line := fun hmem => hfilled (h.comment hmem ▸ hmem)
    obtain ⟨hnewline, hiff⟩ := newline_replace (p := p) hvalue.2.2 h.newline_notMem
    exact {
      comment := fun hmem => absurd hmem hline
      instruction := fun _ hmem => (mem_of_mem_replace hmem).elim hvalue.1 hfilled
      newline_notMem := hnewline
      newline_iff := hiff.trans h.newline_iff
      crlf := fun hcrlf => by
        obtain ⟨body, rfl⟩ := h.crlf hcrlf
        rw [replace_append_right (by decide) rfl p value body]
        exact List.suffix_append _ _ }

/-! ### Steps and passes

A value has no semicolon, comma or newline because it was cut out of a line at exactly these
characters. -/

/-- Candidates that are read off kept lines are clean. -/
theorem cleanValue_of_mem_above? {p : Placeholder} {lines filled : List Text} {index : Nat}
    {candidates : List Text} {value : Text} (hlines : List.Forall₂ Kept lines filled)
    (h : Candidates.above? p filled index = some candidates) (hvalue : value ∈ candidates) :
    CleanValue value := by
  obtain ⟨above, line, -, hline, hlisted⟩ := above?_eq_some_iff.mp h
  obtain ⟨habove, rfl⟩ := List.getElem?_eq_some_iff.mp hline
  have hkept := hlines.get (hlines.length_eq ▸ habove) habove
  obtain ⟨hsemicolon, hcomma⟩ := notMem_of_mem_onLine? hlisted hvalue
  exact ⟨hsemicolon, hcomma, newline_notMem_of_mem_onLine? hlisted hvalue hkept.newline_notMem⟩

/-- A step keeps the shape. -/
theorem shaped_step {lines : List Text} {p : Placeholder} {before after : Variant}
    (h : Shaped lines before) (hstep : Step p before after) : Shaped lines after := by
  cases hstep with
  | keep => exact h
  | @choose _ candidates choice _ hlisted _ hpicked =>
    -- The value was read above a line of the kept lines, so it is as clean as they are.
    have hclean : CleanValue choice.value :=
      cleanValue_of_mem_above? h.lines_kept hlisted (List.mem_of_getElem? hpicked)
    refine ⟨?_, fun c hc => ?_⟩
    · refine List.forall₂_map_right_iff.mpr (h.lines_kept.imp fun _ _ hkept => ?_)
      exact kept_fillLine choice.placeholder hkept hclean
    · rcases List.mem_append.mp hc with hc | hc
      · exact h.values_clean c hc
      · rw [List.mem_singleton] at hc
        rw [hc]
        exact hclean

/-- After any number of passes, every variant has as many lines as the template, each line is kept,
and no value that was chosen holds a semicolon, a comma or a newline. -/
theorem lines_kept_of_passes (text : Text) (ps : List Placeholder) (limit : Option UInt64)
    (count : Nat) {variants : List Variant}
    (h : passes limit (ps.take count) [Variant.ofTemplate (Template.ofText text)] = .ok variants) :
    ∀ variant ∈ variants,
      variant.lines.length = (Template.ofText text).lines.length ∧
      (∀ (i : Nat) (line filled : Text), (Template.ofText text).lines[i]? = some line →
        variant.lines[i]? = some filled → Kept line filled) ∧
      ∀ choice ∈ variant.choices,
        ';' ∉ choice.value ∧ ',' ∉ choice.value ∧ '\n' ∉ choice.value := by
  intro variant hmem
  have hshaped : Shaped (Template.ofText text).lines variant := by
    refine passes_induction h (fun start hstart => ?_)
      (fun p _ before after hbefore => shaped_step hbefore) variant hmem
    rw [List.mem_singleton.mp hstart]
    exact shaped_ofTemplate text
  refine ⟨hshaped.lines_kept.length_eq.symm, fun i line filled hline hfilled => ?_,
    hshaped.values_clean⟩
  obtain ⟨hi, rfl⟩ := List.getElem?_eq_some_iff.mp hline
  obtain ⟨hj, rfl⟩ := List.getElem?_eq_some_iff.mp hfilled
  exact hshaped.lines_kept.get hi hj

/-- A template with both line ends, a value that is a token, and a last line without a newline on
which `%3` has no candidates. -/
def unresolvedText : Text := "; %2=a,b ; %1=%2,x\r\nmov %1\nadd %1\r\nsub %3".toList

/-- Its placeholders. -/
def unresolvedOrder : List Placeholder :=
  ["%1", "%2", "%3"].filterMap fun token => Placeholder.ofToken? token.toList

/-- After two of its three passes the lines of the template are kept. -/
theorem lines_kept_unresolvedText :
    ∃ variants, passes none (unresolvedOrder.take 2)
        [Variant.ofTemplate (Template.ofText unresolvedText)] = .ok variants ∧
      variants.map Variant.contents =
        ["; %2=a,b ; %1=%2,x\r\nmov a\nadd a\r\nsub %3".toList,
          "; %2=a,b ; %1=%2,x\r\nmov b\nadd b\r\nsub %3".toList,
          "; %2=a,b ; %1=%2,x\r\nmov x\nadd x\r\nsub %3".toList] ∧
      ∀ variant ∈ variants,
        variant.lines.length = (Template.ofText unresolvedText).lines.length ∧
        (∀ (i : Nat) (line filled : Text), (Template.ofText unresolvedText).lines[i]? = some line →
          variant.lines[i]? = some filled → Kept line filled) ∧
        ∀ choice ∈ variant.choices,
          ';' ∉ choice.value ∧ ',' ∉ choice.value ∧ '\n' ∉ choice.value := by
  obtain ⟨variants, h⟩ : ∃ variants, passes none (unresolvedOrder.take 2)
      [Variant.ofTemplate (Template.ofText unresolvedText)] = .ok variants := ⟨_, rfl⟩
  have hcontents : (passes none (unresolvedOrder.take 2)
      [Variant.ofTemplate (Template.ofText unresolvedText)]).map (List.map Variant.contents) = .ok
        ["; %2=a,b ; %1=%2,x\r\nmov a\nadd a\r\nsub %3".toList,
          "; %2=a,b ; %1=%2,x\r\nmov b\nadd b\r\nsub %3".toList,
          "; %2=a,b ; %1=%2,x\r\nmov x\nadd x\r\nsub %3".toList] := rfl
  rw [h] at hcontents
  exact ⟨variants, h, Except.ok.inj hcontents, lines_kept_of_passes _ _ none 2 h⟩

end AsmVariants.Proofs
