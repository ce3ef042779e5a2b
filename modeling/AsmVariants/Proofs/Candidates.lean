import AsmVariants.Candidates
import AsmVariants.Proofs.Placeholder.Pieces
import AsmVariants.Variant
import Mathlib.Data.List.DropRight
import Mathlib.Data.List.Infix

/-!
# `AsmVariants.Proofs.Candidates`: what a line can list

A candidate is cut out of a line: out of a segment between semicolons, behind a token and an
equals sign, without the white space at both ends, between commas. The facts that later modules
need of it:

* `onLine?_cases`: the steps by which a list comes out of a line.
* `notMem_of_mem_onLine?` and `newline_notMem_of_mem_onLine?`: a candidate holds no semicolon, no
  comma and, where the line has its newline at its end only, no newline.
* `onLine?_eq_none_of_isSite`: an instruction line lists nothing for a placeholder of which it is
  not a site.
* `onLine?_append_blank`: white space at the end of a line makes no difference to what it lists.
-/

set_option autoImplicit false

namespace AsmVariants.Proofs

/-! ### Cutting at a character

A part of a text that was cut is a stretch of the text without the character at which it was cut.
Both facts hold for semicolons and for commas. -/

/-- What a text is cut into holds no cut character. -/
theorem notMem_of_mem_splitOn {a : Char} {t s : Text} (h : s ∈ t.splitOn a) : a ∉ s := by
  induction t generalizing s with
  | nil =>
    rw [List.splitOn_nil, List.mem_singleton] at h
    subst h
    exact List.not_mem_nil
  | cons c t ih =>
    rw [List.splitOn_cons_eq_if_modifyHead] at h
    split at h
    · -- A cut character makes an empty part in front of the others.
      rcases List.mem_cons.mp h with rfl | h
      · exact List.not_mem_nil
      · exact ih h
    · next hc =>
      cases hcut : t.splitOn a with
      | nil => exact absurd hcut (List.splitOn_ne_nil a t)
      | cons first others =>
        rw [hcut, List.modifyHead_cons] at h
        rcases List.mem_cons.mp h with rfl | h
        · -- Only the first part grows, and it does not grow by a cut character.
          have hfirst : a ∉ first := ih (hcut ▸ List.mem_cons_self)
          rw [List.mem_cons, not_or]
          exact ⟨fun hac => hc (by simp [hac]), hfirst⟩
        · exact ih (hcut ▸ List.mem_cons_of_mem first h)

/-- Each of the texts that are joined is part of the whole. -/
theorem infix_intercalate {sep s : Text} {parts : List Text} (h : s ∈ parts) :
    s <:+: sep.intercalate parts := by
  induction parts with
  | nil => exact nomatch h
  | cons first others ih =>
    by_cases hothers : others = []
    · subst hothers
      rw [List.mem_singleton] at h
      rw [h, List.intercalate_singleton]
    · rw [List.intercalate_cons_of_ne_nil hothers]
      rcases List.mem_cons.mp h with rfl | h
      · exact (List.prefix_append s _).isInfix.trans (List.prefix_append _ _).isInfix
      · exact (ih h).trans (List.suffix_append _ _).isInfix

/-- What a text is cut into is part of it. -/
theorem infix_of_mem_splitOn {a : Char} {t s : Text} (h : s ∈ t.splitOn a) : s <:+: t := by
  have hpart : s <:+: [a].intercalate (t.splitOn a) := infix_intercalate h
  rwa [List.intercalate_splitOn] at hpart

/-! ### Trimming -/

/-- What is left by trimming is part of the text. -/
theorem trim_isInfix (t : Text) : Text.trim t <:+: t :=
  (List.rdropWhile_prefix Text.isBlank (l := t.dropWhile Text.isBlank)).isInfix.trans
    (List.dropWhile_suffix Text.isBlank).isInfix

/-- A trimmed text does not end with white space. -/
theorem isBlank_getLast_trim {t : Text} (h : Text.trim t ≠ []) :
    Text.isBlank ((Text.trim t).getLast h) = false := by
  have hlast := List.rdropWhile_last_not Text.isBlank (t.dropWhile Text.isBlank) h
  exact Bool.not_eq_true _ ▸ hlast

/-- A part of a text has a character before its end only where the text has it. -/
theorem notMem_dropLast_of_infix {c : Char} {s t : Text} (h : s <:+: t) (hc : c ∉ t.dropLast) :
    c ∉ s.dropLast := by
  obtain ⟨before, after, rfl⟩ := h
  intro hmem
  apply hc
  by_cases hafter : after = []
  · -- The part is at the end, so both ends are the same character.
    have hs : s ≠ [] := by
      rintro rfl
      exact nomatch hmem
    subst hafter
    rw [List.append_nil, List.dropLast_append_of_ne_nil hs]
    exact List.mem_append_right before hmem
  · -- Something follows the part, so all of it is in front of the end of the text.
    rw [List.dropLast_append_of_ne_nil hafter]
    exact List.mem_append_left _ (List.mem_append_right before (List.dropLast_subset s hmem))

/-- Trimming takes the newline off the end of a text, so none is left if it is only there. -/
theorem newline_notMem_trim {t : Text} (h : '\n' ∉ t.dropLast) : '\n' ∉ Text.trim t := by
  intro hmem
  have hlast := isBlank_getLast_trim (List.ne_nil_of_mem hmem)
  refine notMem_dropLast_of_infix (trim_isInfix t) h
    (List.mem_dropLast_of_mem_of_ne_getLast hmem fun heq => ?_)
  -- A newline is white space, so it is not the last character that is left.
  rw [← heq] at hlast
  exact absurd hlast (by decide)

/-! ### White space at the end of a line

Each step of the search for a list is shown to hand the white space on, down to the last value,
where it is trimmed off. -/

/-- A digit is no white space. -/
theorem isBlank_of_isDigit {c : Char} (h : c.isDigit) : Text.isBlank c = false := by
  have hcode : 48 ≤ c.toNat ∧ c.toNat ≤ 57 := Char.isDigit_iff_toNat.mp h
  simp only [Text.isBlank, CodeRanges.covers, Text.blankRanges, CodeRanges.coversCode]
  grind

section

variable {tail : Text} (hblank : ∀ c ∈ tail, Text.isBlank c)

include hblank

/-- A character that is not white space does not stand in white space. -/
theorem notMem_of_blank {c : Char} (hc : Text.isBlank c = false) : c ∉ tail := by
  intro hmem
  exact absurd (hblank c hmem) (by simp [hc])

/-- White space does not go on with a digit, so a token in front of it is complete. -/
theorem startsWithDigit_of_blank : Placeholder.startsWithDigit tail = false := by
  cases tail with
  | nil => rfl
  | cons c tail =>
    by_contra hdigit
    rw [startsWithDigit_cons, Bool.not_eq_false] at hdigit
    exact notMem_of_blank hblank (isBlank_of_isDigit hdigit) List.mem_cons_self

/-- White space at the end is trimmed first. -/
theorem trim_append_blank (t : Text) : Text.trim (t ++ tail) = Text.trim t := by
  have hend : ∀ rest : Text, Text.trimEnd (rest ++ tail) = Text.trimEnd rest := by
    intro rest
    have hreverse : ∀ c ∈ tail.reverse, Text.isBlank c := fun c hc =>
      hblank c (List.mem_reverse.mp hc)
    rw [Text.trimEnd, Text.trimEnd, List.reverse_append, List.dropWhile_append_of_pos hreverse]
  rw [Text.trim, Text.trim, List.dropWhile_append]
  split
  · -- The text is white space from end to end.
    next hempty =>
    rw [List.isEmpty_iff.mp hempty, List.dropWhile_eq_nil_iff.mpr hblank]
  · exact hend _

/-- The list of values is the same with white space behind it. -/
theorem ofList?_append_blank (t : Text) :
    Candidates.ofList? (t ++ tail) = Candidates.ofList? t := by
  rw [Candidates.ofList?, Candidates.ofList?, trim_append_blank hblank]

/-- White space introduces no list, so what introduces one stands in front of it. -/
theorem valueText?_append_blank (t : Text) :
    Candidates.valueText? (t ++ tail) = (Candidates.valueText? t).map (· ++ tail) := by
  cases t with
  | nil =>
    cases tail with
    | nil => rfl
    | cons c tail =>
      -- The text is empty, so what could introduce a list is the first of the white space.
      have hc : c ≠ '=' := by
        rintro rfl
        exact notMem_of_blank hblank (by decide) List.mem_cons_self
      exact if_neg hc
  | cons c t =>
    rw [List.cons_append, Candidates.valueText?, Candidates.valueText?]
    split <;> rfl

/-- The last segment of a line takes in the white space behind the line. -/
theorem splitOn_append_blank (line : Text) :
    ∃ front last, line.splitOn ';' = front ++ [last] ∧
      (line ++ tail).splitOn ';' = front ++ [last ++ tail] := by
  have htail : ';' ∉ tail := notMem_of_blank hblank (by decide)
  induction line with
  | nil => exact ⟨[], [], rfl, List.splitOn_eq_singleton htail⟩
  | cons c line ih =>
    obtain ⟨front, last, hline, hlong⟩ := ih
    rw [List.cons_append, List.splitOn_cons_eq_if_modifyHead, List.splitOn_cons_eq_if_modifyHead,
      hline, hlong]
    split
    · -- A semicolon at the front begins an empty segment before the others, so the last one stays.
      exact ⟨[] :: front, last, rfl, rfl⟩
    · -- Any other character goes to the first segment, which is the last one if there is no other.
      cases front with
      | nil => exact ⟨[], c :: last, rfl, rfl⟩
      | cons first front => exact ⟨(c :: first) :: front, last, rfl, rfl⟩

/-- White space at the end of a line makes no difference to what the line lists. -/
theorem onLine?_append_blank (p : Placeholder) (line : Text) :
    Candidates.onLine? p (line ++ tail) = Candidates.onLine? p line := by
  have hpercent : '%' ∉ tail := notMem_of_blank hblank (by decide)
  have hdigit := startsWithDigit_of_blank hblank
  have hvalueText : Candidates.valueText? ∘ (· ++ tail) =
      Option.map (· ++ tail) ∘ Candidates.valueText? :=
    funext fun rest => valueText?_append_blank hblank rest
  -- What is listed behind the tokens of a segment is listed there with white space behind it.
  have hsegment : ∀ segment, ((p.textsAfter (segment ++ tail)).findSome?
      Candidates.valueText?).bind Candidates.ofList? =
      ((p.textsAfter segment).findSome? Candidates.valueText?).bind Candidates.ofList? := by
    intro segment
    rw [textsAfter_append_right hpercent hdigit, List.findSome?_map, hvalueText,
      ← List.map_findSome?, Option.bind_map]
    exact congrArg _ (funext fun values => ofList?_append_blank hblank values)
  obtain ⟨front, last, hline, hlong⟩ := splitOn_append_blank hblank line
  show ((line ++ tail).splitOn ';').find? p.occursIn >>= _ =
    (line.splitOn ';').find? p.occursIn >>= _
  rw [hline, hlong, List.find?_append, List.find?_append, List.find?_singleton,
    List.find?_singleton, occursIn_append_right hpercent hdigit]
  cases front.find? p.occursIn with
  | some segment => rfl
  | none =>
    cases p.occursIn last with
    | false => rfl
    | true => exact hsegment last

end

/-! ### The candidates of a line -/

/-- An equals sign at the start is the only thing that introduces a list. -/
theorem valueText?_eq_some_iff {t listed : Text} :
    Candidates.valueText? t = some listed ↔ t = '=' :: listed := by
  cases t with
  | nil => simp [Candidates.valueText?]
  | cons c t =>
    by_cases hc : c = '='
    · simp [Candidates.valueText?, hc]
    · simp [Candidates.valueText?, hc]

/-- What follows an occurrence is the end of the text. -/
theorem suffix_of_mem_textsAfter {p : Placeholder} {t rest : Text} (h : rest ∈ p.textsAfter t) :
    rest <:+ t := by
  induction t with
  | nil => exact nomatch h
  | cons c t ih =>
    rw [Placeholder.textsAfter] at h
    split at h
    · next after hafter =>
      rcases List.mem_cons.mp h with rfl | h
      · rw [← (textAfter?_eq_some_iff.mp hafter).1]
        exact List.suffix_append p.token rest
      · exact (ih h).trans (List.suffix_cons c t)
    · exact (ih h).trans (List.suffix_cons c t)

/-- A list comes out of the first segment in which the placeholder occurs: out of what follows an
occurrence and an equals sign in it, trimmed, if that is not empty. -/
theorem onLine?_cases {p : Placeholder} {line : Text} {values : List Text}
    (h : Candidates.onLine? p line = some values) :
    ∃ segment listed, (line.splitOn ';').find? p.occursIn = some segment ∧
      '=' :: listed ∈ p.textsAfter segment ∧ Text.trim listed ≠ [] ∧
      values = (Text.trim listed).splitOn ',' := by
  obtain ⟨segment, hsegment, h⟩ := Option.bind_eq_some_iff.mp h
  obtain ⟨listed, hlisted, h⟩ := Option.bind_eq_some_iff.mp h
  obtain ⟨after, hafter, hvalue⟩ := List.exists_of_findSome?_eq_some hlisted
  rw [valueText?_eq_some_iff] at hvalue
  subst hvalue
  refine ⟨segment, listed, hsegment, hafter, ?_⟩
  rw [Candidates.ofList?] at h
  split at h
  · exact nomatch h
  · next hne => exact ⟨hne, (Option.some.inj h).symm⟩

/-- A list holds a candidate. -/
theorem onLine?_ne_nil {p : Placeholder} {line : Text} {values : List Text}
    (h : Candidates.onLine? p line = some values) : values ≠ [] := by
  obtain ⟨segment, listed, -, -, -, rfl⟩ := onLine?_cases h
  exact List.splitOn_ne_nil ',' _

/-- A candidate is part of a segment of the line, and nothing of it is trimmed. -/
theorem infix_of_mem_onLine? {p : Placeholder} {line value : Text} {values : List Text}
    (h : Candidates.onLine? p line = some values) (hvalue : value ∈ values) :
    ∃ segment listed, segment ∈ line.splitOn ';' ∧ listed <:+: segment ∧
      value ∈ (Text.trim listed).splitOn ',' := by
  obtain ⟨segment, listed, hsegment, hmem, -, rfl⟩ := onLine?_cases h
  have hlisted : listed <:+ segment :=
    (List.suffix_cons '=' listed).trans (suffix_of_mem_textsAfter hmem)
  exact ⟨segment, listed, List.mem_of_find?_eq_some hsegment, hlisted.isInfix, hvalue⟩

/-- A candidate holds neither of the characters at which segments and lists are cut. -/
theorem notMem_of_mem_onLine? {p : Placeholder} {line value : Text} {values : List Text}
    (h : Candidates.onLine? p line = some values) (hvalue : value ∈ values) :
    ';' ∉ value ∧ ',' ∉ value := by
  obtain ⟨segment, listed, hsegment, hlisted, hcut⟩ := infix_of_mem_onLine? h hvalue
  have hpart : value <:+: segment :=
    ((infix_of_mem_splitOn hcut).trans (trim_isInfix listed)).trans hlisted
  exact ⟨fun hmem => notMem_of_mem_splitOn hsegment (hpart.subset hmem),
    notMem_of_mem_splitOn hcut⟩

/-- A candidate holds no newline, if the line has its newline at its end only. -/
theorem newline_notMem_of_mem_onLine? {p : Placeholder} {line value : Text} {values : List Text}
    (h : Candidates.onLine? p line = some values) (hvalue : value ∈ values)
    (hline : '\n' ∉ line.dropLast) : '\n' ∉ value := by
  obtain ⟨segment, listed, hsegment, hlisted, hcut⟩ := infix_of_mem_onLine? h hvalue
  have hlast : '\n' ∉ listed.dropLast :=
    notMem_dropLast_of_infix (hlisted.trans (infix_of_mem_splitOn hsegment)) hline
  exact fun hmem => newline_notMem_trim hlast ((infix_of_mem_splitOn hcut).subset hmem)

/-- The candidates above a line are those of the line before it. -/
theorem above?_eq_some_iff {p : Placeholder} {lines : List Text} {index : Nat}
    {candidates : List Text} :
    Candidates.above? p lines index = some candidates ↔
      ∃ above line, index = above + 1 ∧ lines[above]? = some line ∧
        Candidates.onLine? p line = some candidates := by
  cases index with
  | zero => simp [Candidates.above?]
  | succ above => simp [Candidates.above?, Option.bind_eq_some_iff]

/-- A line without a semicolon is one segment, so it lists nothing for a placeholder of which it is
not a site. -/
theorem onLine?_eq_none_of_isSite {p : Placeholder} {line : Text} (hsemicolon : ';' ∉ line)
    (hsite : p.isSite line = false) : Candidates.onLine? p line = none := by
  have hoccurs : p.occursIn line = false := by
    simpa [Placeholder.isSite, isInstruction, hsemicolon] using hsite
  have hfind : (line.splitOn ';').find? p.occursIn = none := by
    rw [List.splitOn_eq_singleton hsemicolon, List.find?_singleton, hoccurs]
    rfl
  rw [Candidates.onLine?, hfind]
  rfl

end AsmVariants.Proofs
