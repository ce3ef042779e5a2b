import AsmVariants.Proofs.Output
import AsmVariants.Run

/-!
# `AsmVariants.Proofs.Run`: what a run leaves in the file system

A run on a tree comes to one of five ends, and `Ran` says of each what was read, expanded and
written to get there. Two statements are read off it:

* `runOn_ok_delivered`: a run that ends with a report has written each variant beside the template
  and changed nothing else. A dry run tells of the same outputs, and a second run changes nothing.
* `runOn_error_kept`: a run that ends with an error has changed nothing, unless a file could not be
  written. Then that is the first such file, the variants before it are written, and nothing else
  has changed.

Before that, `runOn_of_read` and the lemmas behind it say once what a run does at each of its steps,
and no later proof unfolds the run. The report of a run that writes is about the paths that were
written (`runOn_of_writeAll`). These are the planned ones if all of them could be written
(`runOn_of_wrote`), so a dry run reports the same.
-/

set_option autoImplicit false

namespace AsmVariants.Proofs

/-! ### Runs on trees

A run reads, expands and writes. The file system is a tree here, and each step is a function of it,
so the lemmas are equations for the result and the tree at the end. -/

/-- A run on a tree: how it ends, without the events on the way, and the tree it leaves. -/
def runOn (config : Config) (input : Path) (tree : FileTree) :
    Except RunError RunReport × FileTree :=
  let ran : (List Event × Except RunError RunReport) × FileTree :=
    run (m := StateM FileTree) config input tree
  (ran.1.2, ran.2)

/-- The variants of a text under a configuration. -/
def expandText (config : Config) (text : Text) : Except ExpansionError (List Variant) :=
  expand config.limit (Template.ofText text) ((Template.ofText text).placeholders config.order)

/-- Bytes that are read as a text are the encoding of the text. -/
theorem eq_toUtf8_of_ofUtf8? {bytes : ByteArray} {text : Text}
    (h : Text.ofUtf8? bytes = some text) : bytes = text.toUtf8 := by
  rw [Text.ofUtf8?, Option.map_eq_some_iff] at h
  obtain ⟨string, hstring, rfl⟩ := h
  rw [Text.toUtf8, String.ofList_toList]
  rw [String.fromUTF8?] at hstring
  split at hstring
  · exact congrArg String.toUTF8 (Option.some.inj hstring)
  · simp at hstring

/-- A text is told by its encoding. -/
theorem toUtf8_injective : Function.Injective Text.toUtf8 := by
  intro text text' h
  have hread := congrArg Text.ofUtf8? h
  rw [Text.ofUtf8?_toUtf8, Text.ofUtf8?_toUtf8] at hread
  exact Option.some.inj hread

/-- The outputs are numbered in the order of the variants. -/
theorem outputsOf_eq (input : Path) (variants : List Variant) :
    outputsOf input variants =
      variants.mapIdx fun index variant => ⟨input.variant index, variant.choices⟩ := by
  apply List.ext_getElem
  · simp [outputsOf, outputsAt, Path.variants]
  · intro index h h'
    simp [outputsOf, outputsAt, Path.variants]

/-- The paths of the files that variants are written to are those that a dry run names. -/
theorem outputsAt_outputFiles (input : Path) (variants : List Variant) :
    outputsAt ((outputFiles input variants).map Prod.fst) variants = outputsOf input variants := by
  have hpaths :
      (outputFiles input variants).map Prod.fst = input.variants variants.length := by
    apply List.ext_getElem
    · simp [outputFiles, Path.variants]
    · intro index h h'
      simp [outputFiles, Path.variants]
  rw [hpaths, outputsOf]

/-- The files for variants are written from the first to the last. -/
theorem writeVariants_eq (input : Path) (variants : List Variant) :
    writeVariants (m := StateM FileTree) input variants =
      writeAll (outputFiles input variants) := by
  rw [writeVariants]
  congr 1
  apply List.ext_getElem
  · simp [outputFiles, Path.variants]
  · intro index h h'
    simp [outputFiles, Path.variants]

section

variable {config : Config} {input : Path} {tree : FileTree}

variable (config) in
/-- A template that cannot be read, or is no text, ends the run at once. The tree is left as it was.
-/
theorem runOn_of_unreadable (h : ∀ text : Text, tree.read input ≠ .ok text.toUtf8) :
    ∃ cause, runOn config input tree = (.error (.unreadable input cause), tree) := by
  cases hread : tree.read input with
  | error cause =>
    refine ⟨cause, ?_⟩
    simp only [runOn, run, readText, FileAccess.read, stateM_bind_apply, stateM_pure_apply, hread]
  | ok bytes =>
    -- Bytes that are the encoding of no text are refused as such.
    have hbytes : Text.ofUtf8? bytes = none := by
      cases htext : Text.ofUtf8? bytes with
      | none => rfl
      | some text => exact absurd (eq_toUtf8_of_ofUtf8? htext ▸ hread) (h text)
    refine ⟨.notUtf8, ?_⟩
    simp only [runOn, run, readText, FileAccess.read, stateM_bind_apply, stateM_pure_apply, hread,
      hbytes]

variable {text : Text} (hread : tree.read input = .ok text.toUtf8)

include hread

/-- A template that can be read is expanded, and what happens next is told by the result: either an
error, or variants that are delivered. -/
theorem runOn_of_read :
    runOn config input tree =
      match expandText config text with
      | .error error => (.error (.expansion error), tree)
      | .ok variants =>
        let delivered : (List Event × Except RunError RunReport) × FileTree :=
          deliver (m := StateM FileTree) config.dryRun input variants tree
        (delivered.1.2, delivered.2) := by
  rw [expandText]
  cases h : expand config.limit (Template.ofText text)
    ((Template.ofText text).placeholders config.order) with
  | error error =>
    simp only [runOn, run, readText, FileAccess.read, stateM_bind_apply, stateM_pure_apply, hread,
      Text.ofUtf8?_toUtf8, h]
  | ok variants =>
    rcases hdelivered : deliver (m := StateM FileTree) config.dryRun input variants tree with
      ⟨⟨events, answer⟩, after⟩
    simp only [runOn, run, readText, FileAccess.read, stateM_bind_apply, stateM_pure_apply, hread,
      Text.ofUtf8?_toUtf8, h, hdelivered]

variable {variants : List Variant} (hexpand : expandText config text = .ok variants)

include hexpand

/-- A dry run reports the outputs and writes none of them. -/
theorem runOn_of_dryRun (hdry : config.dryRun = true) :
    runOn config input tree = (.ok ⟨outputsOf input variants, false⟩, tree) := by
  rw [runOn_of_read hread, hexpand, hdry]
  rfl

/-- How the run ends is told by the files that were written, and its report has their paths. -/
theorem runOn_of_writeAll (hdry : config.dryRun = false) {written : List Path}
    {failure? : Option WriteFailure} {after : FileTree}
    (h : writeAll (m := StateM FileTree) (outputFiles input variants) tree =
      ((written, failure?), after)) :
    runOn config input tree =
      (failure?.elim (.ok ⟨outputsAt written variants, true⟩) fun failure =>
        .error (.unwritable failure), after) := by
  rw [runOn_of_read hread, hexpand, hdry]
  cases failure? with
  | none =>
    simp only [deliver, Bool.false_eq_true, if_false, writeVariants_eq, stateM_bind_apply, h]
    rfl
  | some failure =>
    simp only [deliver, Bool.false_eq_true, if_false, writeVariants_eq, stateM_bind_apply, h]
    rfl

/-- If every variant is written, the report has the outputs that a dry run names. -/
theorem runOn_of_wrote (hdry : config.dryRun = false) {after : FileTree}
    (h : Wrote tree (outputFiles input variants) after) :
    runOn config input tree = (.ok ⟨outputsOf input variants, true⟩, after) := by
  rw [runOn_of_writeAll hread hexpand hdry h.writeAll_eq, outputsAt_outputFiles]
  rfl

end

/-- How a run can end, and in which tree. -/
inductive Ran (config : Config) (input : Path) (tree : FileTree) :
    Except RunError RunReport → FileTree → Prop
  | unreadable (cause : FileError) :
      Ran config input tree (.error (.unreadable input cause)) tree
  | unexpanded (error : ExpansionError) :
      Ran config input tree (.error (.expansion error)) tree
  | planned {variants : List Variant} (dry : config.dryRun = true) :
      Ran config input tree (.ok ⟨outputsOf input variants, false⟩) tree
  | written {text : Text} {variants : List Variant} {after : FileTree}
      (dry : config.dryRun = false) (read : tree.read input = .ok text.toUtf8)
      (expanded : expandText config text = .ok variants)
      (wrote : Wrote tree (outputFiles input variants) after) :
      Ran config input tree (.ok ⟨outputsOf input variants, true⟩) after
  | stopped {text : Text} {variants : List Variant} {done rest : List (Path × Text)}
      {file : Path × Text} {cause : FileError} {after : FileTree} (dry : config.dryRun = false)
      (read : tree.read input = .ok text.toUtf8) (expanded : expandText config text = .ok variants)
      (files : outputFiles input variants = done ++ file :: rest) (wrote : Wrote tree done after)
      (failed : after.write file.1 file.2.toUtf8 = .error cause) :
      Ran config input tree (.error (.unwritable ⟨file.1, cause⟩)) after

/-- Every run comes to one of the five ends. The cases are taken in the order in which the program
can stop: reading, expanding, asking whether to write, and writing. -/
theorem ran_runOn (config : Config) (input : Path) (tree : FileTree) :
    Ran config input tree (runOn config input tree).1 (runOn config input tree).2 := by
  by_cases hread : ∃ text : Text, tree.read input = .ok text.toUtf8
  · obtain ⟨text, hread⟩ := hread
    cases hexpand : expandText config text with
    | error error =>
      rw [runOn_of_read hread, hexpand]
      exact .unexpanded error
    | ok variants =>
      cases hdry : config.dryRun with
      | true =>
        rw [runOn_of_dryRun hread hexpand hdry]
        exact .planned hdry
      | false =>
        rcases writeAll_cases (outputFiles input variants) tree with
          ⟨after, hwrote⟩ | ⟨done, path, text', rest, after, cause, hfiles, hdone, hfailed, hrun⟩
        · rw [runOn_of_wrote hread hexpand hdry hwrote]
          exact .written hdry hread hexpand hwrote
        · rw [runOn_of_writeAll hread hexpand hdry hrun]
          exact .stopped hdry hread hexpand hfiles hdone hfailed
  · obtain ⟨cause, hrun⟩ := runOn_of_unreadable config fun text htext => hread ⟨text, htext⟩
    rw [hrun]
    exact .unreadable cause

/-- The same for a run of which the end is known. -/
theorem ran_of_runOn {config : Config} {input : Path} {tree after : FileTree}
    {result : Except RunError RunReport} (h : runOn config input tree = (result, after)) :
    Ran config input tree result after := by
  have ran := ran_runOn config input tree
  rwa [h] at ran

/-! ### What a run leaves

The end of a run is read off its result: a report or one of the errors. For each there is one case
of `Ran`. -/

/-- A run that ends with a report has written the variants, in their order and with their choices,
beside the template, which is kept as all else is. A dry run tells of the same outputs and writes
none of them. A second run ends with the same report and changes nothing. -/
theorem runOn_ok_delivered {config : Config} {input : Path} {tree after : FileTree}
    {report : RunReport} (hdry : config.dryRun = false)
    (h : runOn config input tree = (.ok report, after)) :
    ∃ (text : Text) (variants : List Variant),
      tree.read input = .ok text.toUtf8 ∧ expandText config text = .ok variants ∧
      report = ⟨variants.mapIdx fun index variant => ⟨input.variant index, variant.choices⟩, true⟩ ∧
      Delivered tree input variants after ∧
      runOn { config with dryRun := true } input tree =
        (.ok { report with written := false }, tree) ∧
      runOn config input after = (.ok report, after) := by
  cases ran_of_runOn h with
  | planned dry => exact absurd (hdry.symm.trans dry) Bool.false_ne_true
  | @written text variants after _ read expanded wrote =>
    have delivered : Delivered tree input variants after := delivered_of_wrote read wrote
    refine ⟨text, variants, read, expanded, by rw [outputsOf_eq], delivered,
      runOn_of_dryRun read expanded rfl, ?_⟩
    -- All files hold already what the second run writes to them.
    have hagain : Wrote after (outputFiles input variants) after := by
      refine wrote_self fun file hfile => ?_
      obtain ⟨index, hindex, rfl⟩ := List.mem_mapIdx.mp hfile
      exact delivered.read_output index hindex
    have hread : after.read input = .ok text.toUtf8 := delivered.read_template.trans read
    exact runOn_of_wrote hread expanded hdry hagain

/-- The text of a template with two variants. -/
def addText : Text := "; %1=r0,r1\nadd %1\n".toList

/-- Where this template is. -/
def addPath : Path := ⟨"dir/add.zasm".toList⟩

/-- A template in a directory, where a file stands already in the place of the second variant. -/
def addTree : FileTree where
  entries :=
    [(["dir"].map String.toList, .directory),
     (["dir", "add.zasm"].map String.toList, .file addText.toUtf8),
     (["dir", "add_replaced_1.zasm"].map String.toList, .file (Text.toUtf8 "old".toList))]

/-- The variants of this template. -/
def addVariants : List Variant :=
  [⟨["; %1=r0,r1\n", "add r0\n"].map String.toList,
     [⟨⟨['1'], by decide, by decide⟩, 0, "r0".toList⟩]⟩,
   ⟨["; %1=r0,r1\n", "add r1\n"].map String.toList,
     [⟨⟨['1'], by decide, by decide⟩, 1, "r1".toList⟩]⟩]

/-- The text is expanded to these variants. -/
theorem expandText_addText : expandText {} addText = .ok addVariants := by decide +kernel

/-- Both variants are written, the second in the place of the other file. -/
theorem runOn_ok_delivered_addTree :
    ∃ report after, runOn {} addPath addTree = (.ok report, after) ∧
      report.outputs.map (·.path.text) =
        ["dir/add_replaced_0.zasm", "dir/add_replaced_1.zasm"].map String.toList ∧
      Delivered addTree addPath addVariants after ∧
      runOn {} addPath after = (.ok report, after) := by
  have hread : addTree.read addPath = .ok addText.toUtf8 := rfl
  have hrun := runOn_of_writeAll hread expandText_addText rfl rfl
  obtain ⟨text, variants, htext, hvariants, hreport, delivered, -, hagain⟩ :=
    runOn_ok_delivered rfl hrun
  obtain rfl : addText = text := toUtf8_injective (Except.ok.inj (hread.symm.trans htext))
  obtain rfl : addVariants = variants := Except.ok.inj (expandText_addText.symm.trans hvariants)
  exact ⟨_, _, hrun, rfl, delivered, hagain⟩

/-- A run that ends with an error, and every dry run, leaves the tree as it is, unless a file could
not be written. That file is for the first variant that could not be written to begin with. The
variants before it are written, and all else is kept, also where its file and those for later
variants would have been. -/
theorem runOn_error_kept {config : Config} {input : Path} {tree after : FileTree}
    {result : Except RunError RunReport} (h : runOn config input tree = (result, after)) :
    (config.dryRun = true → after = tree) ∧
    (∀ path cause, result = .error (.unreadable path cause) → after = tree) ∧
    (∀ error, result = .error (.expansion error) → after = tree) ∧
    ∀ failure, result = .error (.unwritable failure) →
      ∃ (text : Text) (variants : List Variant) (index : Nat),
        tree.read input = .ok text.toUtf8 ∧ expandText config text = .ok variants ∧
        failure.path = input.variant index ∧
        Stopped tree input variants index failure.cause after := by
  cases ran_of_runOn h with
  | unreadable cause => exact ⟨fun _ => rfl, fun _ _ _ => rfl, nofun, nofun⟩
  | unexpanded error => exact ⟨fun _ => rfl, nofun, fun _ _ => rfl, nofun⟩
  | planned dry => exact ⟨fun _ => rfl, nofun, nofun, nofun⟩
  | written dry =>
    exact ⟨fun hdry => absurd (dry.symm.trans hdry) Bool.false_ne_true, nofun, nofun, nofun⟩
  | stopped dry read expanded files wrote failed =>
    refine ⟨fun hdry => absurd (dry.symm.trans hdry) Bool.false_ne_true, nofun, nofun, ?_⟩
    intro failure hfailure
    cases hfailure
    exact ⟨_, _, _, read, expanded, stopped_of_wrote read files wrote failed⟩

/-- The tree with a directory in the place of the second variant. -/
def blockedTree : FileTree :=
  addTree.put (["dir", "add_replaced_1.zasm"].map String.toList) .directory

/-- The first variant is written, and the second cannot be written. -/
theorem runOn_error_kept_blockedTree :
    ∃ failure after, runOn {} addPath blockedTree = (.error (.unwritable failure), after) ∧
      failure.path.text = "dir/add_replaced_1.zasm".toList ∧
      Stopped blockedTree addPath addVariants 1 failure.cause after := by
  have hread : blockedTree.read addPath = .ok addText.toUtf8 := rfl
  have hrun := runOn_of_writeAll hread expandText_addText rfl rfl
  obtain ⟨-, -, -, hfailure⟩ := runOn_error_kept hrun
  obtain ⟨text, variants, index, htext, hvariants, hpath, stopped⟩ := hfailure _ rfl
  obtain rfl : addText = text := toUtf8_injective (Except.ok.inj (hread.symm.trans htext))
  obtain rfl : addVariants = variants := Except.ok.inj (expandText_addText.symm.trans hvariants)
  have hlength : index < 2 := stopped.index_lt
  have hsecond : index ≠ 0 := by
    rintro rfl
    exact absurd hpath (by decide)
  obtain rfl : index = 1 := by omega
  exact ⟨_, _, hrun, rfl, stopped⟩

end AsmVariants.Proofs
