import AsmVariants.Proofs.Candidates
import AsmVariants.Proofs.Expansion.Replay
import AsmVariants.Proofs.Placeholder.Substitution

/-!
# `AsmVariants.Proofs.Expansion.Clean`: templates whose placeholders do not disturb each other

The passes of an expansion go over lines that earlier passes have rewritten. In general a pass can
meet tokens that the template does not have, or miss some that it has. `Clean` is the condition
under which it does not: no candidate holds a percent sign, and no placeholder with a candidate
that begins with a digit stands directly behind a percent sign and digits.

For a clean template, `filled` describes every variant that the passes can lead to by its choices
alone: each instruction line of the template has its values put in, all at once.

* `firstSite?_filled`: such a variant has the first site and the candidates that the template has,
  unless the placeholder has its value already. Then it has no site.
* `withChoice_filled`: one more choice leads to a variant of the same kind.
-/

set_option autoImplicit false

namespace AsmVariants.Proofs

open Placeholder (startsWithDigit)

/-- The candidates that govern a placeholder: those that stand directly above its first site in
the template. There are none without a site, and none above the first line. -/
def governing? (template : Template) (p : Placeholder) : Option (List Text) :=
  (template.lines.findIdx? p.isSite).bind (Candidates.above? p template.lines)

/-- The condition under which the placeholders do not disturb each other:

- `percent_notMem`: no candidate holds a percent sign;
- `not_standsBehindRun`: a placeholder with a candidate that begins with a digit does not occur
  directly behind a percent sign and digits, on any line without a semicolon. -/
structure Clean (template : Template) (ps : List Placeholder) : Prop where
  percent_notMem : ∀ p ∈ ps, ∀ candidates ∈ governing? template p, ∀ value ∈ candidates,
    '%' ∉ value
  not_standsBehindRun : ∀ p ∈ ps, ∀ candidates ∈ governing? template p,
    (∃ value ∈ candidates, startsWithDigit value) →
    ∀ line ∈ template.lines, ';' ∉ line → ¬ StandsBehindRun p line

/-- Whether a template is clean can be decided: only its own lists of candidates are looked through.
-/
instance (template : Template) (ps : List Placeholder) : Decidable (Clean template ps) :=
  decidable_of_iff
    ((∀ p ∈ ps, ∀ candidates ∈ governing? template p, ∀ value ∈ candidates, '%' ∉ value) ∧
      ∀ p ∈ ps, ∀ candidates ∈ governing? template p,
        (∃ value ∈ candidates, startsWithDigit value) →
        ∀ line ∈ template.lines, ';' ∉ line → ¬ StandsBehindRun p line)
    ⟨fun ⟨h, h'⟩ => ⟨h, h'⟩, fun ⟨h, h'⟩ => ⟨h, h'⟩⟩

/-- A template that is clean for some placeholders is clean for fewer. -/
theorem Clean.mono {template : Template} {ps qs : List Placeholder} (h : Clean template ps)
    (hsub : qs ⊆ ps) : Clean template qs where
  percent_notMem p hp := h.percent_notMem p (hsub hp)
  not_standsBehindRun p hp := h.not_standsBehindRun p (hsub hp)

/-! ### The values that were chosen

A list of choices gives each placeholder the value of its first choice. As a placeholder is chosen
for once, there is no other. -/

/-- The value that was chosen for a placeholder. -/
def valuesOf (choices : List Choice) : Values := fun p =>
  (choices.find? fun choice => decide (choice.placeholder = p)).map Choice.value

/-- A value was chosen by one of the choices. -/
theorem exists_mem_of_valuesOf {choices : List Choice} {p : Placeholder} {value : Text}
    (h : valuesOf choices p = some value) :
    ∃ choice ∈ choices, choice.placeholder = p ∧ choice.value = value := by
  obtain ⟨choice, hfound, rfl⟩ := Option.map_eq_some_iff.mp h
  exact ⟨choice, List.mem_of_find?_eq_some hfound, by simpa using List.find?_some hfound, rfl⟩

/-- A placeholder has no value if no choice was made for it. -/
theorem valuesOf_eq_none_iff {choices : List Choice} {p : Placeholder} :
    valuesOf choices p = none ↔ p ∉ choices.map Choice.placeholder := by
  rw [valuesOf, Option.map_eq_none_iff, List.find?_eq_none, List.mem_map, not_exists]
  refine forall_congr' fun choice => ?_
  rw [not_and, decide_eq_true_iff]

/-- A choice for a placeholder that has no value gives it one. -/
theorem valuesOf_append {choices : List Choice} {choice : Choice}
    (h : valuesOf choices choice.placeholder = none) :
    valuesOf (choices ++ [choice]) =
      (valuesOf choices).set choice.placeholder choice.value := by
  funext p
  rw [Values.set, valuesOf, List.find?_append, Option.map_or]
  by_cases hp : p = choice.placeholder
  · -- No choice in front is for this placeholder, so the search reaches the new one.
    subst hp
    rw [if_pos rfl, show (choices.find? _).map Choice.value = none from h]
    simp
  · have hskip : [choice].find? (fun c => decide (c.placeholder = p)) = none := by
      simpa using Ne.symm hp
    rw [if_neg hp, hskip]
    simp [valuesOf]

/-- Every choice is for one of the placeholders and picks one of the candidates that govern it. -/
def Picked (template : Template) (ps : List Placeholder) (choices : List Choice) : Prop :=
  ∀ choice ∈ choices, choice.placeholder ∈ ps ∧
    ∃ candidates ∈ governing? template choice.placeholder, choice.value ∈ candidates

/-- The candidates that govern a placeholder stand on a line of the template. -/
theorem exists_onLine?_of_governing? {template : Template} {p : Placeholder}
    {candidates : List Text} (h : governing? template p = some candidates) :
    ∃ line, Candidates.onLine? p line = some candidates := by
  obtain ⟨index, -, habove⟩ := Option.bind_eq_some_iff.mp h
  obtain ⟨-, line, -, -, hline⟩ := above?_eq_some_iff.mp habove
  exact ⟨line, hline⟩

section

variable {template : Template} {ps : List Placeholder} {choices : List Choice}

/-- What was picked holds no semicolon. -/
theorem semicolon_notMem_of_picked (h : Picked template ps choices) {p : Placeholder}
    {value : Text} (hp : valuesOf choices p = some value) : ';' ∉ value := by
  obtain ⟨choice, hmem, rfl, rfl⟩ := exists_mem_of_valuesOf hp
  obtain ⟨-, candidates, hgoverning, hvalue⟩ := h choice hmem
  obtain ⟨line, hline⟩ := exists_onLine?_of_governing? hgoverning
  exact (notMem_of_mem_onLine? hline hvalue).1

/-- What was picked can be put into the instruction lines of a clean template one after another. -/
theorem fits_of_picked (clean : Clean template ps) (h : Picked template ps choices) {line : Text}
    (hline : line ∈ template.lines) (hsemicolon : ';' ∉ line) :
    Fits (valuesOf choices) line where
  percent_notMem p value hp := by
    obtain ⟨choice, hmem, rfl, rfl⟩ := exists_mem_of_valuesOf hp
    obtain ⟨hps, candidates, hgoverning, hvalue⟩ := h choice hmem
    exact clean.percent_notMem _ hps candidates hgoverning _ hvalue
  not_standsBehindRun p value hp hdigit := by
    obtain ⟨choice, hmem, rfl, rfl⟩ := exists_mem_of_valuesOf hp
    obtain ⟨hps, candidates, hgoverning, hvalue⟩ := h choice hmem
    exact clean.not_standsBehindRun _ hps candidates hgoverning ⟨_, hvalue, hdigit⟩ line hline
      hsemicolon

/-! ### Lines with all values in them

The lines of a variant are those of the template with `fillAll` applied to each. What a pass looks
at in such a line is what it would see in the line of the template. -/

/-- A line of the template with all values put in at once, if it has no semicolon. -/
def fillAll (choices : List Choice) (line : Text) : Text :=
  if ';' ∈ line then line else substitute (valuesOf choices) line

/-- The variant that some choices lead to. -/
def filled (template : Template) (choices : List Choice) : Variant where
  lines := template.lines.map (fillAll choices)
  choices := choices

/-- Without a choice it is the template. -/
theorem filled_nil (template : Template) : filled template [] = Variant.ofTemplate template := by
  have hkept : ∀ line ∈ template.lines, fillAll [] line = id line := by
    intro line _
    rw [fillAll]
    split
    · rfl
    · exact substitute_none line
  rw [filled, List.map_congr_left hkept, List.map_id]
  rfl

/-- Filling in keeps comment lines and instruction lines apart. -/
theorem semicolon_mem_fillAll_iff (h : Picked template ps choices) {line : Text} :
    ';' ∈ fillAll choices line ↔ ';' ∈ line := by
  rw [fillAll]
  split
  · rfl
  · next hsemicolon =>
    refine iff_of_false (fun hmem => ?_) hsemicolon
    -- A candidate stands between semicolons, so no value brings one in.
    rcases mem_of_mem_substitute hmem with ⟨p, value, hp, hvalue⟩ | hmem
    · exact semicolon_notMem_of_picked h hp hvalue
    · exact hsemicolon hmem

/-- A line with values in it is a site where the line of the template is one, unless the
placeholder has a value. -/
theorem isSite_fillAll (clean : Clean template ps) (h : Picked template ps choices) {line : Text}
    (hline : line ∈ template.lines) (p : Placeholder) :
    p.isSite (fillAll choices line) = (p.isSite line && (valuesOf choices p).isNone) := by
  by_cases hsemicolon : ';' ∈ line
  · -- A comment is no site, before or after.
    have hcomment : isInstruction line = false := by simpa [isInstruction] using hsemicolon
    rw [fillAll, if_pos hsemicolon, Placeholder.isSite, hcomment]
    rfl
  · have hfilled : isInstruction (fillAll choices line) :=
      isInstruction_iff.mpr fun hmem => hsemicolon ((semicolon_mem_fillAll_iff h).mp hmem)
    rw [Placeholder.isSite, Placeholder.isSite, hfilled, isInstruction_iff.mpr hsemicolon,
      Bool.true_and, Bool.true_and, fillAll, if_neg hsemicolon,
      occursIn_substitute (fits_of_picked clean h hline hsemicolon)]

/-- The first site of a placeholder without a value is where the template has it. A placeholder
with a value has none. -/
theorem findIdx?_filled (clean : Clean template ps) (h : Picked template ps choices)
    (p : Placeholder) :
    (filled template choices).lines.findIdx? p.isSite =
      if (valuesOf choices p).isNone then template.lines.findIdx? p.isSite else none := by
  have hsites : ∀ line ∈ template.lines,
      (p.isSite ∘ fillAll choices) line = (p.isSite line && (valuesOf choices p).isNone) :=
    fun line hline => isSite_fillAll clean h hline p
  rw [filled, List.findIdx?_map, findIdx?_congr (List.forall₂_same.mpr hsites)]
  cases (valuesOf choices p).isNone with
  | true => simp only [Bool.and_true, if_true]
  | false => simp

/-- What stands above the first site is what the template has there. A comment line is not
rewritten, and an instruction line that is not a site lists nothing, rewritten or not. -/
theorem above?_filled (clean : Clean template ps) (h : Picked template ps choices)
    {p : Placeholder} {index : Nat} (hfirst : template.lines.findIdx? p.isSite = some index) :
    Candidates.above? p (filled template choices).lines index =
      Candidates.above? p template.lines index := by
  cases index with
  | zero => rfl
  | succ above =>
    obtain ⟨hindex, -, hbefore⟩ := List.findIdx?_eq_some_iff_getElem.mp hfirst
    have habove : above < template.lines.length := Nat.lt_of_succ_lt hindex
    have hline : template.lines[above] ∈ template.lines := List.getElem_mem habove
    have hsite : p.isSite template.lines[above] = false := by
      simpa using hbefore above (Nat.lt_succ_self above)
    rw [Candidates.above?, Candidates.above?, filled, List.getElem?_map,
      List.getElem?_eq_getElem habove]
    show Candidates.onLine? p (fillAll choices template.lines[above]) =
      Candidates.onLine? p template.lines[above]
    by_cases hsemicolon : ';' ∈ template.lines[above]
    · rw [fillAll, if_pos hsemicolon]
    · -- The line is an instruction before a first site, so it is none of the sites.
      have hfilled : ';' ∉ fillAll choices template.lines[above] :=
        fun hmem => hsemicolon ((semicolon_mem_fillAll_iff h).mp hmem)
      have hsite' : p.isSite (fillAll choices template.lines[above]) = false := by
        rw [isSite_fillAll clean h hline, hsite, Bool.false_and]
      rw [onLine?_eq_none_of_isSite hsemicolon hsite, onLine?_eq_none_of_isSite hfilled hsite']

/-- A variant of a clean template has the first site that the template has, with the same
candidates, or none if the placeholder has its value. -/
theorem firstSite?_filled (clean : Clean template ps) (h : Picked template ps choices)
    (p : Placeholder) :
    (filled template choices).firstSite? p =
      if (valuesOf choices p).isNone then (Variant.ofTemplate template).firstSite? p
      else .ok none := by
  have hfind := findIdx?_filled clean h p
  cases hnone : (valuesOf choices p).isNone with
  | false =>
    rw [hnone, if_neg Bool.false_ne_true] at hfind
    rw [if_neg Bool.false_ne_true]
    exact firstSite?_eq_ok_none_iff.mpr hfind
  | true =>
    rw [hnone, if_pos rfl] at hfind
    rw [if_pos rfl]
    -- The line is the one in the template, so it is enough to look up what is listed above it.
    obtain ⟨hfirst, hsite⟩ | ⟨index, hfirst, hlisted, hsite⟩ |
      ⟨index, candidates, hfirst, hlisted, hsite⟩ :=
        firstSite?_cases (Variant.ofTemplate template) p
    · rw [hsite]
      exact firstSite?_eq_ok_none_iff.mpr (hfind.trans hfirst)
    · rw [hsite]
      exact firstSite?_eq_error (hfind.trans hfirst)
        ((above?_filled clean h hfirst).trans hlisted)
    · rw [hsite]
      exact firstSite?_eq_ok_some_iff.mpr ⟨hfind.trans hfirst,
        (above?_filled clean h hfirst).trans hlisted⟩

/-- One more choice puts one more value into the lines. -/
theorem withChoice_filled (clean : Clean template ps) (h : Picked template ps choices)
    {choice : Choice} (hnone : valuesOf choices choice.placeholder = none) :
    withChoice (filled template choices) choice = filled template (choices ++ [choice]) := by
  have hline : ∀ line ∈ template.lines,
      (fillLine choice.placeholder choice.value ∘ fillAll choices) line =
        fillAll (choices ++ [choice]) line := by
    intro line hmem
    show fillLine choice.placeholder choice.value (fillAll choices line) = _
    rw [fillLine_eq]
    -- A comment is passed over both times. In an instruction, the new value goes in after the
    -- others, which brought no token for it.
    by_cases hsemicolon : ';' ∈ line
    · rw [if_pos ((semicolon_mem_fillAll_iff h).mpr hsemicolon), fillAll, fillAll,
        if_pos hsemicolon, if_pos hsemicolon]
    · rw [if_neg fun hin => hsemicolon ((semicolon_mem_fillAll_iff h).mp hin), fillAll, fillAll,
        if_neg hsemicolon, if_neg hsemicolon, valuesOf_append hnone,
        replace_substitute (fits_of_picked clean h hmem hsemicolon) hnone]
  rw [withChoice, filled, filled, List.map_map, List.map_congr_left hline]

end

end AsmVariants.Proofs
