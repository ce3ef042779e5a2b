import AsmVariants.Proofs.Candidates
import AsmVariants.Proofs.Expansion.Replay
import AsmVariants.Proofs.Expansion.Simulation
import AsmVariants.Proofs.Text.LineEnd

/-!
# `AsmVariants.Proofs.Expansion.LineEnd`: expansion commutes with the conversion of line ends

A template whose newlines get a carriage return has the same placeholders, and it expands to the
same variants with their newlines converted. All that is read off a line is read off its body: a
line end is white space, so it holds no token and ends one that stands in front of it, it is no
semicolon, and it is trimmed off the last value of a list. And a value that is filled in holds no
newline, so that the body of a line stays a body.

`isSite_append_blank`, `fillLine_append_blank` and `onLine?_append_blank` say this of a line with
any white space behind it. With them, the expansions of a text and of the converted text run side by
side (`simulation_converted`), and `expand_crlf` puts it in terms of the texts. Carriage returns
that stand elsewhere, lines without an end and values with tokens in them are all allowed.
-/

set_option autoImplicit false

namespace AsmVariants.Proofs

/-! ### Lines with white space behind them -/

section

variable {tail : Text} (hblank : ∀ c ∈ tail, Text.isBlank c)

include hblank

/-- White space behind a line neither adds a token nor makes the last one longer. -/
theorem tokens_append_blank (line : Text) : Text.tokens (line ++ tail) = Text.tokens line := by
  have hpercent : '%' ∉ tail := notMem_of_blank hblank (by decide)
  exact tokens_append_right hpercent (startsWithDigit_of_blank hblank) line

/-- White space behind a line does not make it a site, nor does it hide one. -/
theorem isSite_append_blank (p : Placeholder) (line : Text) :
    p.isSite (line ++ tail) = p.isSite line := by
  have hpercent : '%' ∉ tail := notMem_of_blank hblank (by decide)
  have hsemicolon : ';' ∉ tail := notMem_of_blank hblank (by decide)
  have hinstruction : isInstruction (line ++ tail) = isInstruction line := by
    simp [isInstruction, hsemicolon]
  rw [Placeholder.isSite, Placeholder.isSite, hinstruction,
    occursIn_append_right hpercent (startsWithDigit_of_blank hblank)]

/-- A value is filled in in front of the white space, which stays as it is. -/
theorem fillLine_append_blank (p : Placeholder) (value line : Text) :
    fillLine p value (line ++ tail) = fillLine p value line ++ tail := by
  have hpercent : '%' ∉ tail := notMem_of_blank hblank (by decide)
  rw [fillLine, fillLine, isSite_append_blank hblank]
  split
  · exact replace_append_right hpercent (startsWithDigit_of_blank hblank) p value line
  · rfl

end

/-! ### Lines with their ends converted -/

/-- A newline is white space. -/
theorem isBlank_newline : ∀ c ∈ ['\n'], Text.isBlank c :=
  List.forall_mem_singleton.mpr (by decide)

/-- A newline with a carriage return in front of it is white space. -/
theorem isBlank_carriageReturn : ∀ c ∈ ['\r', '\n'], Text.isBlank c :=
  List.forall_mem_cons.mpr ⟨by decide, isBlank_newline⟩

section

variable {line line' : Text}

/-- What does not depend on white space at the end of a line does not depend on the line end. -/
theorem Converted.congr {α : Type} {f : Text → α} (h : Converted line line')
    (hf : ∀ tail, (∀ c ∈ tail, Text.isBlank c) → ∀ line, f (line ++ tail) = f line) :
    f line = f line' := by
  cases h with
  | unterminated => rfl
  | terminated => rw [hf _ isBlank_newline, hf _ isBlank_carriageReturn]

/-- A value without a newline that is filled in leaves the line ends where they are. -/
theorem Converted.filled (h : Converted line line') (p : Placeholder) {value : Text}
    (hvalue : '\n' ∉ value) : Converted (fillLine p value line) (fillLine p value line') := by
  have hbody : ∀ {body : Text}, '\n' ∉ body → '\n' ∉ fillLine p value body := by
    intro body hnewline hmem
    exact (mem_of_mem_fillLine hmem).elim hvalue hnewline
  -- Filling in stops in front of the line end, so it comes to filling in the body.
  cases h with
  | unterminated hnewline => exact .unterminated (hbody hnewline)
  | terminated hnewline =>
    rw [fillLine_append_blank isBlank_newline, fillLine_append_blank isBlank_carriageReturn]
    exact .terminated (hbody hnewline)

end

/-! ### Two expansions side by side -/

/-- Two variants have made the same choices, and the lines of the second are those of the first with
their ends converted. -/
def ConvertedVariant (variant variant' : Variant) : Prop :=
  variant.choices = variant'.choices ∧ List.Forall₂ Converted variant.lines variant'.lines

/-- Converted lines list the same above each line. -/
theorem above?_eq_of_converted {lines lines' : List Text}
    (h : List.Forall₂ Converted lines lines') (p : Placeholder) (index : Nat) :
    Candidates.above? p lines index = Candidates.above? p lines' index := by
  cases index with
  | zero => rfl
  | succ above =>
    rw [Candidates.above?, Candidates.above?]
    -- Down both lists, to the line at the index.
    induction h generalizing above with
    | nil => rfl
    | cons hline _ ih =>
      cases above with
      | zero => exact hline.congr fun tail hblank line => onLine?_append_blank hblank p line
      | succ above => exact ih above

/-- Variants with converted line ends are expanded side by side. -/
theorem simulation_converted (ps : List Placeholder) : Simulation ps ConvertedVariant where
  firstSite?_eq := by
    rintro variant variant' ⟨-, hlines⟩ p -
    refine firstSite?_congr (findIdx?_congr ?_) fun index _ => above?_eq_of_converted hlines p index
    exact hlines.imp fun _ _ hline =>
      hline.congr fun tail hblank line => isSite_append_blank hblank p line
  withChoice := by
    rintro variant variant' site choice ⟨hchoices, hlines⟩ hsite hpicked
    obtain ⟨-, hlisted⟩ := firstSite?_eq_ok_some_iff.mp hsite
    obtain ⟨above, line, -, hline, honLine⟩ := above?_eq_some_iff.mp hlisted
    -- The value was read off a line, and a line has its newline at the end only.
    obtain ⟨habove, rfl⟩ := List.getElem?_eq_some_iff.mp hline
    have hconverted := hlines.get habove (hlines.length_eq ▸ habove)
    have hvalue : '\n' ∉ choice.value :=
      newline_notMem_of_mem_onLine? honLine (List.mem_of_getElem? hpicked)
        hconverted.newline_notMem_dropLast
    refine ⟨congrArg (· ++ [choice]) hchoices, ?_⟩
    rw [withChoice, withChoice, List.forall₂_map_left_iff, List.forall₂_map_right_iff]
    exact hlines.imp fun _ _ hline => hline.filled choice.placeholder hvalue

/-- A converted text has the placeholders of the text, in either order. Expanding it fails as
expanding the text does, or leads to variants with the same choices in the same positions, whose
contents are converted. -/
theorem expand_crlf (text : Text) :
    (∀ order, (Template.ofText (crlf text)).placeholders order =
      (Template.ofText text).placeholders order) ∧
    ∀ limit ps, Agree (List.Forall₂ fun variant variant' =>
        variant.choices = variant'.choices ∧ crlf variant.contents = variant'.contents)
      (expand limit (Template.ofText text) ps) (expand limit (Template.ofText (crlf text)) ps) := by
  have hlines : List.Forall₂ Converted (Template.ofText text).lines
      (Template.ofText (crlf text)).lines := converted_splitLines text
  constructor
  · intro order
    have htokens : (Template.ofText text).lines.map Text.tokens =
        (Template.ofText (crlf text)).lines.map Text.tokens := by
      rw [← List.forall₂_eq_eq_eq, List.forall₂_map_left_iff, List.forall₂_map_right_iff]
      exact hlines.imp fun _ _ hline =>
        hline.congr fun tail hblank line => tokens_append_blank hblank line
    rw [Template.placeholders, Template.placeholders, List.flatMap_def, List.flatMap_def, htokens]
  · intro limit ps
    have hstart : ConvertedVariant (Variant.ofTemplate (Template.ofText text))
        (Variant.ofTemplate (Template.ofText (crlf text))) := ⟨rfl, hlines⟩
    refine ((simulation_converted ps).expand limit hstart).imp fun variants variants' hrelated =>
      hrelated.imp ?_
    rintro variant variant' ⟨hchoices, hconverted⟩
    exact ⟨hchoices, crlf_flatten hconverted⟩

end AsmVariants.Proofs
