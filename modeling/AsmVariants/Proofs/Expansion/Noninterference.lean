import AsmVariants.Proofs.Candidates
import AsmVariants.Proofs.Expansion.Replay
import AsmVariants.Proofs.Expansion.Simulation

/-!
# `AsmVariants.Proofs.Expansion.Noninterference`: what comments can tell an expansion

Of a comment, an expansion can learn that it is one, and what it lists for a placeholder if it
stands directly above an instruction. Nothing else about it makes a difference. `ReadAlike` says of
two templates that they are the same in all that can be learned, and `expand_agree_of_readAlike`
says that their expansions then fail with the same error, or make the same choices and fill in the
same instruction lines.

The two expansions run side by side (`Simulation`). At each point the lines of both variants come
from the two templates by one and the same function, which is the identity on comments and keeps
semicolons out of instructions (`Fills`, `FilledAlike`). Through it, everything that a pass reads
can be traced back to the templates: `findIdx?_eq_of_readAlike` for sites and
`above?_eq_of_readAlike` for candidates. Nothing is assumed of the candidates.
-/

set_option autoImplicit false

namespace AsmVariants.Proofs

/-! ### Templates that read alike

Lines are compared in pairs, so the two templates have as many lines. The lists are compared only
where a pass would look for them: in a comment with an instruction below it. -/

/-- Two lines are the same instruction, or each of them has a comment. -/
def LineAlike (line line' : Text) : Prop :=
  (line = line' ∧ ';' ∉ line) ∨ (';' ∈ line ∧ ';' ∈ line')

instance (line line' : Text) : Decidable (LineAlike line line') :=
  inferInstanceAs (Decidable (_ ∨ _))

/-- Two lines list the same candidates for each of some placeholders. -/
def ListAlike (ps : List Placeholder) (line line' : Text) : Prop :=
  ∀ p ∈ ps, Candidates.onLine? p line = Candidates.onLine? p line'

instance (ps : List Placeholder) (line line' : Text) : Decidable (ListAlike ps line line') :=
  inferInstanceAs (Decidable (∀ p ∈ ps, _))

/-- Two templates read alike for some placeholders:

- `lines`: on each line they have the same instruction, or each of them has a comment;
- `listed`: a comment directly above an instruction lists the same candidates in both. -/
structure ReadAlike (ps : List Placeholder) (template template' : Template) : Prop where
  lines : List.Forall₂ LineAlike template.lines template'.lines
  listed : ∀ above, ∀ comment ∈ template.lines[above]?, ∀ comment' ∈ template'.lines[above]?,
    ∀ line ∈ template.lines[above + 1]?, ';' ∈ comment → ';' ∉ line →
    ListAlike ps comment comment'

set_option synthInstance.maxSize 256 in
instance (ps : List Placeholder) (template template' : Template) :
    Decidable (ReadAlike ps template template') :=
  decidable_of_iff
    (List.Forall₂ LineAlike template.lines template'.lines ∧
      ∀ above < template.lines.length, ∀ comment ∈ template.lines[above]?,
        ∀ comment' ∈ template'.lines[above]?, ∀ line ∈ template.lines[above + 1]?,
        ';' ∈ comment → ';' ∉ line → ListAlike ps comment comment')
    ⟨fun ⟨h, h'⟩ => ⟨h, fun above comment hcomment =>
      h' above (List.getElem?_eq_some_iff.mp hcomment).1 comment hcomment⟩,
    fun ⟨h, h'⟩ => ⟨h, fun above _ => h' above⟩⟩

/-! ### Variants that are filled in alike

The relation between two variants says that one function leads from the lines of each template to
those of its variant. The function is the same for both, and it does not touch comments. -/

/-- A function that keeps comments as they are, and keeps semicolons out of instructions. -/
structure Fills (fill : Text → Text) : Prop where
  comment : ∀ line, ';' ∈ line → fill line = line
  instruction : ∀ line, ';' ∉ line → ';' ∉ fill line

/-- Two variants of two templates have made the same choices, and their lines come from the lines of
their templates in the same way. -/
def FilledAlike (template template' : Template) (variant variant' : Variant) : Prop :=
  variant.choices = variant'.choices ∧ ∃ fill, Fills fill ∧
    variant.lines = template.lines.map fill ∧ variant'.lines = template'.lines.map fill

/-- A line that has no semicolon after it was filled in had none before. -/
theorem Fills.notMem {fill : Text → Text} (hfill : Fills fill) {line : Text}
    (h : ';' ∉ fill line) : ';' ∉ line := by
  intro hmem
  rw [hfill.comment line hmem] at h
  exact h hmem

/-- Putting in a value without a semicolon is one more way to fill in lines. -/
theorem Fills.fillLine_comp {fill : Text → Text} (hfill : Fills fill) (p : Placeholder)
    {value : Text} (hvalue : ';' ∉ value) : Fills (fillLine p value ∘ fill) where
  comment line hline := by
    rw [Function.comp_apply, hfill.comment line hline, fillLine_eq, if_pos hline]
  instruction line hline := by
    intro hmem
    exact (mem_of_mem_fillLine hmem).elim hvalue (hfill.instruction line hline)

section

variable {ps : List Placeholder} {template template' : Template} {fill : Text → Text}
  {p : Placeholder}

/-- Lines that are filled in in the same way have their first site on the same line. No comment is a
site, and the instructions are the same. -/
theorem findIdx?_eq_of_readAlike (h : ReadAlike ps template template') (hfill : Fills fill)
    (p : Placeholder) : (template.lines.map fill).findIdx? p.isSite =
      (template'.lines.map fill).findIdx? p.isSite := by
  -- A comment is kept, so it is no site on either side, whatever it says.
  have hcomment : ∀ line, ';' ∈ line → p.isSite (fill line) = false := by
    intro line hline
    rw [hfill.comment line hline]
    simp [Placeholder.isSite, isInstruction, hline]
  refine findIdx?_congr ?_
  rw [List.forall₂_map_left_iff, List.forall₂_map_right_iff]
  refine h.lines.imp fun line line' hline => ?_
  obtain ⟨rfl, -⟩ | ⟨hline, hline'⟩ := hline
  · rfl
  · rw [hcomment line hline, hcomment line' hline']

/-- At a first site, the same candidates are read off the line above. -/
theorem above?_eq_of_readAlike (h : ReadAlike ps template template') (hfill : Fills fill)
    (hp : p ∈ ps) {index : Nat}
    (hfirst : (template.lines.map fill).findIdx? p.isSite = some index) :
    Candidates.above? p (template.lines.map fill) index =
      Candidates.above? p (template'.lines.map fill) index := by
  cases index with
  | zero => rfl
  | succ above =>
    obtain ⟨hindex, hsite, -⟩ := List.findIdx?_eq_some_iff_getElem.mp hfirst
    rw [List.length_map] at hindex
    have habove : above < template.lines.length := Nat.lt_of_succ_lt hindex
    have habove' : above < template'.lines.length := h.lines.length_eq ▸ habove
    -- The site is an instruction in the template too.
    have hline : ';' ∉ template.lines[above + 1] := by
      rw [List.getElem_map, Placeholder.isSite, Bool.and_eq_true] at hsite
      exact hfill.notMem (isInstruction_iff.mp hsite.1)
    rw [Candidates.above?, Candidates.above?, List.getElem?_map, List.getElem?_map,
      List.getElem?_eq_getElem habove, List.getElem?_eq_getElem habove']
    show Candidates.onLine? p (fill template.lines[above]) =
      Candidates.onLine? p (fill template'.lines[above])
    have hannotation : LineAlike template.lines[above] template'.lines[above] :=
      h.lines.get habove habove'
    obtain ⟨hsame, -⟩ | ⟨hcomment, hcomment'⟩ := hannotation
    · rw [hsame]
    · -- Comments are kept as they are, so they list what they list in the templates.
      rw [hfill.comment _ hcomment, hfill.comment _ hcomment']
      exact h.listed above _ (List.getElem?_eq_getElem habove) _ (List.getElem?_eq_getElem habove')
        _ (List.getElem?_eq_getElem hindex) hcomment hline p hp

end

/-- Variants that are filled in alike are expanded alike. -/
theorem simulation_filledAlike {ps : List Placeholder} {template template' : Template}
    (h : ReadAlike ps template template') :
    Simulation ps (FilledAlike template template') where
  firstSite?_eq := by
    rintro variant variant' ⟨-, fill, hfill, hlines, hlines'⟩ p hp
    refine firstSite?_congr ?_ ?_
    · rw [hlines, hlines']
      exact findIdx?_eq_of_readAlike h hfill p
    · rw [hlines, hlines']
      intro index hindex
      exact above?_eq_of_readAlike h hfill hp hindex
  withChoice := by
    rintro variant variant' site choice ⟨hchoices, fill, hfill, hlines, hlines'⟩ hsite hpicked
    obtain ⟨-, hlisted⟩ := firstSite?_eq_ok_some_iff.mp hsite
    obtain ⟨-, comment, -, -, honLine⟩ := above?_eq_some_iff.mp hlisted
    have hvalue : ';' ∉ choice.value :=
      (notMem_of_mem_onLine? honLine (List.mem_of_getElem? hpicked)).1
    -- Both are filled in by the same function as before and then by one more.
    refine ⟨?_, fillLine choice.placeholder choice.value ∘ fill,
      hfill.fillLine_comp choice.placeholder hvalue, ?_, ?_⟩
    · rw [withChoice, withChoice, hchoices]
    · rw [withChoice, hlines, List.map_map]
    · rw [withChoice, hlines', List.map_map]

/-- Templates that read alike expand alike: with the same error, or with variants that have,
position by position, the same choices and the same instruction lines. -/
theorem expand_agree_of_readAlike {ps : List Placeholder} {template template' : Template}
    (limit : Option UInt64) (h : ReadAlike ps template template') :
    Agree (List.Forall₂ fun variant variant' => variant.choices = variant'.choices ∧
        ∀ (i : Nat) (line : Text), template.lines[i]? = some line → ';' ∉ line →
          ∃ filled, variant.lines[i]? = some filled ∧ variant'.lines[i]? = some filled)
      (expand limit template ps) (expand limit template' ps) := by
  -- To begin with, nothing is filled in.
  have hid : Fills id := ⟨fun _ _ => rfl, fun _ hline => hline⟩
  have hstart : FilledAlike template template' (Variant.ofTemplate template)
      (Variant.ofTemplate template') :=
    ⟨rfl, id, hid, (List.map_id _).symm, (List.map_id _).symm⟩
  refine ((simulation_filledAlike h).expand limit hstart).imp fun variants variants' hrelated =>
    hrelated.imp ?_
  rintro variant variant' ⟨hchoices, fill, -, hlines, hlines'⟩
  refine ⟨hchoices, fun i line hline hsemicolon => ⟨fill line, ?_, ?_⟩⟩
  · rw [hlines, List.getElem?_map, hline]
    rfl
  · -- The other template has the same line there, since this one has no comment.
    obtain ⟨hi, rfl⟩ := List.getElem?_eq_some_iff.mp hline
    have hi' : i < template'.lines.length := h.lines.length_eq ▸ hi
    have hlineAt : LineAlike template.lines[i] template'.lines[i] := h.lines.get hi hi'
    obtain ⟨hsame, -⟩ := hlineAt.resolve_right fun hcomment => hsemicolon hcomment.1
    rw [hlines', List.getElem?_map, List.getElem?_eq_getElem hi', ← hsame]
    rfl

/-- A template with a comment that lists, one that stands above a comment, and one behind an
instruction. -/
def plainText : Text := "; %2=a,b ; %1=%2,x\nmov %1\n; see %1\nnop ; %2=q\n".toList

/-- The same template with other comments. -/
def remarkedText : Text :=
  ";%2=a,b ; was %3 ; %1=%2,x  \r\nmov %1\n; %1=z\nret ;\n".toList

/-- Their placeholders. -/
def remarkedOrder : List Placeholder :=
  ["%1", "%2"].filterMap fun token => Placeholder.ofToken? token.toList

/-- The expansions differ in the comments alone. -/
theorem expand_agree_remarkedText :
    ∃ variants variants',
      expand (some 3) (Template.ofText plainText) remarkedOrder = .ok variants ∧
      expand (some 3) (Template.ofText remarkedText) remarkedOrder = .ok variants' ∧
      variants.map (fun variant => variant.lines[1]?) =
        ["mov a\n", "mov b\n", "mov x\n"].map (some ·.toList) ∧
      List.Forall₂ (fun variant variant' => variant.choices = variant'.choices ∧
        ∀ (i : Nat) (line : Text), (Template.ofText plainText).lines[i]? = some line →
          ';' ∉ line →
          ∃ filled, variant.lines[i]? = some filled ∧ variant'.lines[i]? = some filled)
        variants variants' := by
  have halike : ReadAlike remarkedOrder (Template.ofText plainText)
      (Template.ofText remarkedText) := by decide
  have hline : (expand (some 3) (Template.ofText plainText) remarkedOrder).map
      (List.map fun variant => variant.lines[1]?) = .ok
        (["mov a\n", "mov b\n", "mov x\n"].map (some ·.toList)) := rfl
  obtain ⟨variants, h, hvariants⟩ := map_eq_ok_iff.mp hline
  obtain ⟨variants', h'⟩ : ∃ variants',
    expand (some 3) (Template.ofText remarkedText) remarkedOrder = .ok variants' := ⟨_, rfl⟩
  have hagree := expand_agree_of_readAlike (some 3) halike
  rw [h, h'] at hagree
  exact ⟨variants, variants', h, h', hvariants, hagree⟩

end AsmVariants.Proofs
