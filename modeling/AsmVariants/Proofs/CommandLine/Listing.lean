import AsmVariants.Proofs.CommandLine.Settings
import AsmVariants.Proofs.Expansion.LineShape

/-!
# `AsmVariants.Proofs.CommandLine.Listing`: the output has a line for each variant

A program that exits with code zero has expanded its template, unless it was asked for help or for
its version. `Expands` says which variants it has made, and `IsListing` that its output lists them.
That each variant has one line needs that nothing in the line is a newline: values were read off
single lines (`shaped_of_expandText`), and the path of an output is made of pieces of the template's
path (`newline_notMem_variant`).

With the option for a dry run the program does the same up to the point where it would write. The
option can be added anywhere among the items of a command line (`ofItems_insert_dryRun`), since no
other item has to do with it.

`performOn_lists_variants` has both. It asks that the template's path has no newline, because the
path of an output is printed as it is. The report does not say whether files were written, which is
why a dry run ends in the same way (`performOn_asDryRun`).
-/

set_option autoImplicit false

namespace AsmVariants.Proofs

open CommandLine (Item Outcome Refusal)
open ExpandCommand (choiceText outputText reportText settings)
open ExpandOption (options)
open Invocation (Draft)

/-! ### Lists of variants -/

/-- A line for a variant: the path, and the choices behind it if there are any. -/
inductive IsLine (path : Path) : List Choice → Text → Prop
  | path : IsLine path [] path.text
  | choices {choices : List Choice} (ne_nil : choices ≠ []) :
      IsLine path choices
        (path.text ++ [' ', '('] ++
          [' '].intercalate (choices.map fun choice =>
            choice.placeholder.token ++ ['='] ++ choice.value) ++ [')'])

/-- The output has as many lines as there are variants. Each line ends with its only newline, and
it is the one for the variant. -/
structure IsListing (template : Path) (variants : List Variant) (output : Text) : Prop where
  length_eq : output.splitLines.length = variants.length
  isLine : ∀ (index : Nat) (h : index < variants.length), ∃ line,
    output.splitLines[index]? = some (line ++ ['\n']) ∧ '\n' ∉ line ∧
      IsLine (template.variant index) variants[index].choices line

/-- The variants that are asked for: those of the text in the template's file, under the settings
of the run. -/
structure Expands (invocation : Invocation) (tree : FileTree) (config : Config)
    (variants : List Variant) : Prop where
  settings_eq : settings invocation (baseOn invocation tree) = .ok config
  expanded : ∃ text, tree.read invocation.template = .ok text.toUtf8 ∧
    expandText config text = .ok variants

/-- What is written of an output is its line. -/
theorem isLine_outputText (output : Output) :
    IsLine output.path output.choices (outputText output) := by
  obtain ⟨path, choices⟩ := output
  rw [outputText]
  split
  · next hnil =>
    obtain rfl : choices = [] := hnil
    exact .path
  · next hne =>
    have hpairs : choices.map choiceText =
        choices.map fun choice => choice.placeholder.token ++ ['='] ++ choice.value := by
      simp [choiceText]
    rw [hpairs]
    exact .choices hne

/-! ### Newlines

An output is printed as its path, and as its choices if it has any. A choice has a token, an equals
sign and a value, and none of the three can bring a newline with it. -/

/-- A token is a percent sign and digits. -/
theorem newline_notMem_token (p : Placeholder) : '\n' ∉ p.token := by
  rw [Placeholder.token, List.mem_cons, not_or]
  exact ⟨by decide, fun hmem => absurd (p.isDigit_of_mem hmem) (by decide)⟩

/-- The line of an output has a newline only if its path or one of its values has. What stands
between these has none. -/
theorem newline_notMem_outputText {output : Output} (hpath : '\n' ∉ output.path.text)
    (hvalues : ∀ choice ∈ output.choices, '\n' ∉ choice.value) : '\n' ∉ outputText output := by
  rw [outputText]
  split
  · exact hpath
  · simp only [List.mem_append, not_or]
    refine ⟨⟨⟨hpath, by decide⟩, fun hmem => ?_⟩, by decide⟩
    -- A character of the choices is the blank between two of them or stands in one: in its token,
    -- as its equals sign or in its value.
    rcases mem_intercalate hmem with h | ⟨part, hpart, h⟩
    · exact absurd h (by decide)
    · obtain ⟨choice, hchoice, rfl⟩ := List.mem_map.mp hpart
      rw [choiceText, List.mem_append, List.mem_cons] at h
      rcases h with h | h | h
      · exact newline_notMem_token _ h
      · exact absurd h (by decide)
      · exact hvalues choice hchoice h

/-- The variants of a text keep the shape of its lines, and their values are clean. -/
theorem shaped_of_expandText {config : Config} {text : Text} {variants : List Variant}
    (h : expandText config text = .ok variants) :
    ∀ variant ∈ variants, Shaped (Template.ofText text).lines variant := by
  obtain ⟨-, -, hpasses⟩ := bind_eq_ok_iff.mp h
  refine passes_induction hpasses (fun start hstart => ?_)
    fun p _ before after hbefore => shaped_step hbefore
  rw [List.mem_singleton.mp hstart]
  exact shaped_ofTemplate text

/-- The report of a run lists the variants. -/
theorem isListing_reportText {config : Config} {template : Path} {text : Text}
    {variants : List Variant} (expanded : expandText config text = .ok variants)
    (no_newline : '\n' ∉ template.text) (written : Bool) :
    IsListing template variants (reportText ⟨outputsOf template variants, written⟩) := by
  -- Cut into lines, the report has a line for each output, because no output has a newline of its
  -- own.
  have houtputs : ∀ output ∈ outputsOf template variants, '\n' ∉ outputText output := by
    rw [outputsOf_eq]
    intro output houtput
    obtain ⟨index, hindex, rfl⟩ := List.mem_mapIdx.mp houtput
    have hshaped := shaped_of_expandText expanded _ (List.getElem_mem hindex)
    exact newline_notMem_outputText (newline_notMem_variant no_newline index)
      fun choice hchoice => (hshaped.values_clean choice hchoice).2.2
  have hlines : (reportText ⟨outputsOf template variants, written⟩).splitLines =
      (outputsOf template variants).map fun output => outputText output ++ ['\n'] := by
    have h := splitLines_flatMap_newline (List.forall_mem_map.mpr houtputs)
    rwa [List.flatMap_map, List.map_map] at h
  refine ⟨by rw [hlines, outputsOf_eq]; simp, fun index hindex => ?_⟩
  have hmem : ⟨template.variant index, variants[index].choices⟩ ∈ outputsOf template variants := by
    rw [outputsOf_eq]
    exact List.mem_mapIdx.mpr ⟨index, hindex, rfl⟩
  refine ⟨_, ?_, houtputs _ hmem, isLine_outputText ⟨_, _⟩⟩
  rw [hlines, outputsOf_eq]
  simp [hindex]

/-! ### Programs that exit with code zero

A failure has another exit code, so a program that was asked for an expansion and exits with zero
has come to its report. -/

section

variable {invocation : Invocation} {config : Config} {tree : FileTree} {variants : List Variant}

/-- A run that ends with a report has made variants, and it reports their outputs. -/
theorem exists_of_runOn_ok {input : Path} {report : RunReport}
    (h : (runOn config input tree).1 = .ok report) :
    ∃ text variants, tree.read input = .ok text.toUtf8 ∧ expandText config text = .ok variants ∧
      report.outputs = outputsOf input variants := by
  -- Every other way that a run can take ends with an error: the template is no readable text, its
  -- expansion fails, or a file is not written.
  by_cases hread : ∃ text : Text, tree.read input = .ok text.toUtf8
  · obtain ⟨text, hread⟩ := hread
    cases hexpand : expandText config text with
    | error error =>
      rw [runOn_of_read hread, hexpand] at h
      exact nomatch h
    | ok variants =>
      refine ⟨text, variants, hread, hexpand, ?_⟩
      cases hdry : config.dryRun with
      | true =>
        rw [runOn_of_dryRun hread hexpand hdry] at h
        rw [← Except.ok.inj h]
      | false =>
        rcases writeAll_cases (outputFiles input variants) tree with
          ⟨after, hwrote⟩ | ⟨done, path, text', rest, after, cause, -, -, -, hrun⟩
        · rw [runOn_of_wrote hread hexpand hdry hwrote] at h
          rw [← Except.ok.inj h]
        · rw [runOn_of_writeAll hread hexpand hdry hrun] at h
          exact nomatch h
  · obtain ⟨cause, hrun⟩ := runOn_of_unreadable config fun text htext => hread ⟨text, htext⟩
    rw [hrun] at h
    exact nomatch h

/-- A program that was asked for an expansion and exits with code zero has made variants, and it
ends with the report of their outputs. -/
theorem exists_of_performOn {arguments : List Text}
    (asked : Invocation.ofArguments arguments = .ok invocation)
    (exits : (performOn arguments tree).1.exitCode = 0) :
    ∃ config variants written, Expands invocation tree config variants ∧
      (performOn arguments tree).1 =
        .done (reportText ⟨outputsOf invocation.template variants, written⟩) := by
  rw [performOn_of_ok tree asked] at exits ⊢
  cases hsettings : settings invocation (baseOn invocation tree) with
  | error error =>
    rw [hsettings] at exits
    exact absurd exits (show (1 : UInt32) ≠ 0 by decide)
  | ok config =>
    rw [hsettings] at exits
    rw [pursue] at exits ⊢
    cases hrun : (runOn config invocation.template tree).1 with
    | error error =>
      rw [hrun] at exits
      exact absurd exits (show (1 : UInt32) ≠ 0 by decide)
    | ok report =>
      obtain ⟨text, variants, hread, hexpand, houtputs⟩ := exists_of_runOn_ok hrun
      exact ⟨config, variants, report.written, ⟨hsettings, text, hread, hexpand⟩, by
        rw [← houtputs, ending]⟩

/-! ### Dry runs

The flag for a dry run sets one field of a draft, and no other item reads or sets this field. So it
can be taken at any time, and what comes of the other items is the same. -/

/-- The draft with or without the flag for a dry run. -/
def setDryRun (dryRun : Bool) (draft : Draft) : Draft := { draft with dryRun }

/-- What is asked for, as a dry run. -/
def asDryRun (invocation : Invocation) : Invocation := { invocation with dryRun := true }

/-- Other items are taken with the flag as they are without it. -/
theorem take_setDryRun {item : Item ExpandOption} (h : item ≠ .flag .dryRun) (dryRun : Bool)
    (draft : Draft) :
    (setDryRun dryRun draft).take item = (draft.take item).map (setDryRun dryRun) := by
  cases item with
  | malformed => rfl
  | positional value =>
    -- No field that is given here is the one for a dry run.
    simp only [Draft.take, setDryRun]
    cases Invocation.give draft.template (Invocation.path? value) <;> rfl
  | flag key =>
    cases key with
    | dryRun => exact absurd rfl h
    | verbose =>
      simp only [Draft.take, Draft.takeFlag, setDryRun]
      cases Invocation.raise draft.verbose <;> rfl
    | help | version | order | limit | config => rfl
  | option key value =>
    cases key with
    | order =>
      simp only [Draft.take, Draft.takeOption, setDryRun]
      cases Invocation.give draft.order (PlaceholderOrder.ofName? value) <;> rfl
    | limit =>
      simp only [Draft.take, Draft.takeOption, setDryRun]
      cases Invocation.give draft.limit (Invocation.limit? value) <;> rfl
    | config =>
      simp only [Draft.take, Draft.takeOption, setDryRun]
      cases Invocation.give draft.config (Invocation.path? value) <;> rfl
    | dryRun | verbose | help | version => rfl

/-- Items without the flag are taken with it as they are without it, one after another. -/
theorem foldlM_take_setDryRun {items : List (Item ExpandOption)} (h : .flag .dryRun ∉ items)
    (dryRun : Bool) (draft : Draft) :
    items.foldlM Draft.take (setDryRun dryRun draft) =
      (items.foldlM Draft.take draft).map (setDryRun dryRun) := by
  induction items generalizing draft with
  | nil => rfl
  | cons item items ih =>
    rw [List.mem_cons, not_or] at h
    rw [List.foldlM_cons, List.foldlM_cons, take_setDryRun (Ne.symm h.1)]
    cases draft.take item with
    | error refusal => rfl
    | ok next => exact ih h.2 next

/-- The flag for a dry run can be added anywhere. -/
theorem ofItems_insert_dryRun {before behind : List (Item ExpandOption)}
    (absent : .flag .dryRun ∉ before ++ behind) :
    Invocation.ofItems (before ++ .flag .dryRun :: behind) =
      (Invocation.ofItems (before ++ behind)).map asDryRun := by
  rw [List.mem_append, not_or] at absent
  rw [Invocation.ofItems, Invocation.ofItems, List.foldlM_append, List.foldlM_append]
  cases hbefore : before.foldlM Draft.take {} with
  | error refusal => rfl
  | ok draft =>
    -- The flag has not been raised before.
    have hlowered : draft.dryRun = false := by
      have hkept := foldlM_take_setDryRun absent.1 false {}
      have hstart : setDryRun false {} = {} := rfl
      rw [hstart, hbefore] at hkept
      exact congrArg Draft.dryRun (Except.ok.inj hkept)
    have hflag : draft.take (.flag .dryRun) = .ok (setDryRun true draft) := by
      simp only [Draft.take, Draft.takeFlag, hlowered]
      rfl
    show (.flag .dryRun :: behind).foldlM Draft.take draft >>= Draft.finish =
      (behind.foldlM Draft.take draft >>= Draft.finish).map asDryRun
    rw [List.foldlM_cons, hflag]
    show behind.foldlM Draft.take (setDryRun true draft) >>= Draft.finish = _
    rw [foldlM_take_setDryRun absent.2]
    cases behind.foldlM Draft.take draft with
    | error refusal => rfl
    | ok final =>
      show (setDryRun true final).finish = final.finish.map asDryRun
      simp only [Draft.finish, setDryRun]
      cases final.template <;> rfl

/-- The flag in front of a command line is one item more. It takes no value, so the next argument is
read as it was. -/
theorem items_dryRun_cons (arguments : List Text) :
    options.items ("--dry-run".toList :: arguments) = .flag .dryRun :: options.items arguments :=
  rfl

/-- As a dry run, the settings are the same but for the dry run. -/
theorem settings_asDryRun {base : Except ConfigError Config}
    (h : settings invocation base = .ok config) :
    settings (asDryRun invocation) base = .ok { config with dryRun := true } := by
  cases base with
  | error error => exact nomatch h
  | ok base =>
    rw [settings_ok] at h ⊢
    split at h
    · exact nomatch h
    · next hlimit =>
      have hlimit' : ¬ (asDryRun invocation).limit.or base.limit = some 0 := hlimit
      rw [if_neg hlimit', ← Except.ok.inj h]
      simp [Invocation.applyTo, asDryRun]

/-- A program that exits with code zero ends in the same way as a dry run, and then it leaves the
tree as it is. -/
theorem performOn_asDryRun {arguments arguments' : List Text}
    (exits : (performOn arguments tree).1.exitCode = 0)
    (h : Invocation.ofArguments arguments' = (Invocation.ofArguments arguments).map asDryRun) :
    performOn arguments' tree = ((performOn arguments tree).1, tree) := by
  cases hread : Invocation.ofArguments arguments with
  | error refusal =>
    rw [hread] at h
    rw [performOn_of_error tree hread, performOn_of_error tree h]
  | ok invocation =>
    rw [hread] at h
    obtain ⟨config, variants, written, expands, houtput⟩ := exists_of_performOn hread exits
    obtain ⟨text, htext, hexpand⟩ := expands.expanded
    -- The flag changes neither the configuration that is loaded nor the variants, only what is done
    -- with them.
    have hbase : baseOn (asDryRun invocation) tree = baseOn invocation tree := rfl
    have hexpand' : expandText { config with dryRun := true } text = .ok variants := hexpand
    have hrun : runOn { config with dryRun := true } (asDryRun invocation).template tree =
        (.ok ⟨outputsOf invocation.template variants, false⟩, tree) :=
      runOn_of_dryRun htext hexpand' rfl
    rw [performOn_of_ok tree h, hbase, settings_asDryRun expands.settings_eq, houtput, pursue,
      hrun]
    rfl

end

/-- A program that exits with code zero was asked for its help or its version, or it has made
variants and its output lists them. If the flag for a dry run is added to its command line, in front
or anywhere among the items, it ends in the same way and leaves the tree as it is. -/
theorem performOn_lists_variants {arguments : List Text} {tree : FileTree}
    (exits : (performOn arguments tree).1.exitCode = 0)
    (no_newline : ∀ invocation, Invocation.ofArguments arguments = .ok invocation →
      '\n' ∉ invocation.template.text) :
    ((∃ refusal, (refusal = .help ∨ refusal = .version) ∧
        Invocation.ofArguments arguments = .error refusal ∧
        performOn arguments tree = (.refused refusal, tree)) ∨
      ∃ invocation config variants output,
        Invocation.ofArguments arguments = .ok invocation ∧
        Expands invocation tree config variants ∧
        (performOn arguments tree).1 = .done output ∧
        IsListing invocation.template variants output) ∧
    (.flag .dryRun ∉ options.items arguments →
      performOn ("--dry-run".toList :: arguments) tree = ((performOn arguments tree).1, tree) ∧
      ∀ before behind arguments', options.items arguments = before ++ behind →
        options.items arguments' = before ++ .flag .dryRun :: behind →
        performOn arguments' tree = ((performOn arguments tree).1, tree)) := by
  -- The flag in front of the arguments is the flag in front of the items, so both laws come of this
  -- one.
  have hinsert : ∀ before behind arguments', .flag .dryRun ∉ before ++ behind →
      options.items arguments = before ++ behind →
      options.items arguments' = before ++ .flag .dryRun :: behind →
      performOn arguments' tree = ((performOn arguments tree).1, tree) := by
    intro before behind arguments' absent hitems hitems'
    refine performOn_asDryRun exits ?_
    rw [Invocation.ofArguments, Invocation.ofArguments, hitems, hitems',
      ofItems_insert_dryRun absent]
  refine ⟨?_, fun absent => ⟨?_, fun before behind arguments' hitems => ?_⟩⟩
  · cases hread : Invocation.ofArguments arguments with
    | error refusal =>
      have hperform := performOn_of_error tree hread
      refine .inl ⟨refusal, ?_, rfl, hperform⟩
      -- The code tells help and the version from a command line that is not understood.
      rw [hperform] at exits
      cases refusal with
      | help => exact .inl rfl
      | version => exact .inr rfl
      | usage => exact absurd exits (show (2 : UInt32) ≠ 0 by decide)
    | ok invocation =>
      obtain ⟨config, variants, written, expands, houtput⟩ := exists_of_performOn hread exits
      obtain ⟨text, -, hexpand⟩ := expands.expanded
      exact .inr ⟨invocation, config, variants, _, rfl, expands, houtput,
        isListing_reportText hexpand (no_newline invocation hread) written⟩
  · exact hinsert [] _ _ absent rfl (items_dryRun_cons arguments)
  · rw [hitems] at absent
    exact hinsert before behind arguments' absent hitems

/-- The listing of two variants. -/
def addListing : Text :=
  "dir/add_replaced_0.zasm (%1=r0)\ndir/add_replaced_1.zasm (%1=r1)\n".toList

/-- Both variants are listed, with or without the flag for a dry run. -/
theorem performOn_lists_variants_addTree :
    (performOn (["-v", "dir/add.zasm"].map String.toList) addTree).1 = .done addListing ∧
    IsListing addPath addVariants addListing ∧
    performOn (["--dry-run", "-v", "dir/add.zasm"].map String.toList) addTree =
      (.done addListing, addTree) := by
  have hdone : (performOn (["-v", "dir/add.zasm"].map String.toList) addTree).1 =
      .done addListing := by decide +kernel
  have hasked : Invocation.ofArguments (["-v", "dir/add.zasm"].map String.toList) =
      .ok ⟨addPath, none, none, false, none, true⟩ := by decide +kernel
  have hpath : ∀ invocation, Invocation.ofArguments (["-v", "dir/add.zasm"].map String.toList) =
      .ok invocation → '\n' ∉ invocation.template.text := by
    intro invocation h
    rw [← Except.ok.inj (hasked.symm.trans h)]
    decide
  obtain ⟨hlisted, hdry⟩ := performOn_lists_variants (congrArg Outcome.exitCode hdone) hpath
  have hflag := (hdry (by decide +kernel)).1
  rw [hdone] at hflag
  refine ⟨hdone, ?_, hflag⟩
  rcases hlisted with ⟨refusal, -, hrefused, -⟩ | ⟨invocation, config, variants, output, h, expands,
    houtput, listing⟩
  · exact nomatch hasked.symm.trans hrefused
  · obtain rfl := Except.ok.inj (hasked.symm.trans h)
    obtain rfl := Outcome.done.inj (hdone.symm.trans houtput)
    obtain ⟨text, htext, hexpand⟩ := expands.expanded
    obtain rfl : addText = text :=
      toUtf8_injective (Except.ok.inj ((show addTree.read addPath = _ from rfl).symm.trans htext))
    have hconfig : config = {} := (Except.ok.inj expands.settings_eq).symm
    rw [hconfig, expandText_addText] at hexpand
    rwa [Except.ok.inj hexpand]

end AsmVariants.Proofs
