import AsmVariants.CommandLine.ExpandCommand
import AsmVariants.Proofs.CommandLine.Invocation
import AsmVariants.Proofs.Config.Reading
import AsmVariants.Proofs.Run

/-!
# `AsmVariants.Proofs.CommandLine.Settings`: a configuration is another spelling of options

The program is run on a tree (`performOn`), from its arguments to its end. What it does depends on
the template and on the settings only, and the settings are the options laid over the configuration
(`performOn_of_spells`). So the options can say what a configuration says. `merged` is the
invocation in which they do, and `performOn_merged` says that the program does the same with it,
whatever file the configuration was in and however the options are written.

A limit of zero is the one setting that the program refuses, and it does so after the options were
laid over the configuration. So a zero in a file does no harm if another limit is given
(`pursue_eq_zeroLimit_iff`). No run ends with the reason for this refusal
(`ending_ne_zeroLimit`), so the reason tells that it was this.
-/

set_option autoImplicit false

namespace AsmVariants.Proofs

open CommandLine (Outcome Refusal)
open ExpandCommand (baseConfig configReason invoke perform reportText runReason settings)

/-- The program on a tree: how it ends, without the events on the way, and the tree it leaves. Its
exit code, its output and what it reports are those of this end. -/
def performOn (arguments : List Text) (tree : FileTree) : Outcome × FileTree :=
  let performed : (List Event × Outcome) × FileTree :=
    perform (m := StateM FileTree) arguments tree
  (performed.1.2, performed.2)

/-- The configuration that the options are laid over. -/
def baseOn (invocation : Invocation) (tree : FileTree) : Except ConfigError Config :=
  invocation.config.elim (.ok {}) fun path => loadOn path tree

/-- How the program ends, told by how the run ends. -/
def ending (template : Path) : Except RunError RunReport → Outcome
  | .error error => .failed (runReason template error)
  | .ok report => .done (reportText report)

/-- What the program does with a template and its settings, if they can be used. -/
def pursue (template : Path) (tree : FileTree) : Except ConfigError Config → Outcome × FileTree
  | .error error => (.failed (configReason error), tree)
  | .ok config => (ending template (runOn config template tree).1, (runOn config template tree).2)

/-! ### The program step by step

Arguments are read, a configuration is loaded if one is named, and the rest is told by the settings.
Each step has a lemma, so that no later proof unfolds the program. -/

/-- Reading the configuration leaves the tree as it is. -/
theorem baseConfig_eq (invocation : Invocation) (tree : FileTree) :
    baseConfig (m := StateM FileTree) invocation tree = (baseOn invocation tree, tree) := by
  rw [baseConfig, baseOn]
  cases invocation.config with
  | none => rfl
  | some path => exact load_eq path tree

section

variable {arguments : List Text} {invocation : Invocation} (tree : FileTree)

/-- A command line that is refused has no effect on the tree, and nothing is read from it. -/
theorem performOn_of_error {refusal : Refusal}
    (h : Invocation.ofArguments arguments = .error refusal) :
    performOn arguments tree = (.refused refusal, tree) := by
  simp only [performOn, perform, h, stateM_pure_apply]

/-- What the program does is told by the template and the settings. This is the equation that two
spellings of one invocation are compared by. -/
theorem performOn_of_ok (h : Invocation.ofArguments arguments = .ok invocation) :
    performOn arguments tree =
      pursue invocation.template tree (settings invocation (baseOn invocation tree)) := by
  have hbase := baseConfig_eq invocation tree
  cases hsettings : settings invocation (baseOn invocation tree) with
  | error error =>
    simp only [performOn, perform, h, invoke, stateM_bind_apply, stateM_pure_apply, hbase,
      hsettings, pursue]
  | ok config =>
    simp only [performOn, perform, h, invoke, stateM_bind_apply, hbase, hsettings, pursue, runOn]
    rcases run (m := StateM FileTree) config invocation.template tree with ⟨⟨events, _ | _⟩, after⟩
    · rfl
    · rfl

/-- The program does what the command line spells, if it names a template. -/
theorem performOn_of_spells (spells : Spells arguments invocation)
    (hconfig : ∀ path ∈ invocation.config, path.text ≠ []) :
    performOn arguments tree =
      if invocation.template.text = [] then (.refused .usage, tree)
      else pursue invocation.template tree (settings invocation (baseOn invocation tree)) := by
  have hread := ofArguments_of_spells spells
  by_cases htemplate : invocation.template.text = []
  · rw [if_neg fun h => h.1 htemplate] at hread
    rw [if_pos htemplate, performOn_of_error tree hread]
  · rw [if_pos ⟨htemplate, hconfig⟩] at hread
    rw [if_neg htemplate, performOn_of_ok tree hread]

end

/-! ### Settings

Laying `merged` over the standard configuration gives the same settings as laying the options over
the loaded one, so what is done with them is the same. -/

/-- The invocation whose options say what the options say together with a configuration. -/
def merged (given : Invocation) (base : Config) : Invocation :=
  { given with
    order := some (given.order.getD base.order)
    limit := given.limit.or base.limit
    dryRun := given.dryRun || base.dryRun
    config := none }

/-- With nothing but defaults under it, the merged invocation has the settings that the given one
has over the configuration. -/
theorem applyTo_merged (given : Invocation) (base : Config) :
    (merged given base).applyTo {} = given.applyTo base := by
  simp [Invocation.applyTo, merged, Bool.or_comm]

/-- The settings can be used exactly if they have no limit of zero. -/
theorem settings_ok (invocation : Invocation) (base : Config) :
    settings invocation (.ok base) =
      if invocation.limit.or base.limit = some 0 then .error .zeroLimit
      else .ok (invocation.applyTo base) := by
  show (do (invocation.applyTo base).validate; return invocation.applyTo base) = _
  rw [Config.validate, Invocation.applyTo]
  split <;> rfl

/-- No end of a run is worded like a limit of zero. -/
theorem ending_ne_zeroLimit (template : Path) (result : Except RunError RunReport) :
    ending template result ≠ .failed (configReason .zeroLimit) := by
  cases result with
  | ok report => exact nofun
  | error error =>
    intro h
    have hreason : runReason template error = configReason .zeroLimit := Outcome.failed.inj h
    have hhead : some 'F' = some 'm' := congrArg List.head? hreason
    exact absurd hhead (by decide)

/-- The empty path is that of no file, so none with a configuration. -/
theorem text_ne_nil_of_loadOn {path : Path} {tree : FileTree} {base : Config}
    (h : loadOn path tree = .ok base) : path.text ≠ [] := by
  intro hnil
  have hread : tree.read path = .error .notFound := by
    simp [FileTree.read, FileTree.segments, hnil, bind, Except.bind]
  simp [loadOn, Config.load, readText, FileAccess.read, stateM_bind_apply, stateM_pure_apply,
    hread] at h

/-- The options can say what a configuration says. -/
theorem settings_merged (given : Invocation) (base : Config) :
    settings (merged given base) (.ok {}) = settings given (.ok base) := by
  have hlimit : (merged given base).limit.or none = given.limit.or base.limit := Option.or_none
  rw [settings_ok, settings_ok, applyTo_merged, hlimit]

/-- With a limit of zero the program does not begin, and it says so only then. -/
theorem pursue_eq_zeroLimit_iff (given : Invocation) (base : Config) (tree : FileTree) :
    (pursue given.template tree (settings given (.ok base))).1 =
        .failed (configReason .zeroLimit) ↔ given.limit.or base.limit = some 0 := by
  rw [settings_ok]
  split
  · next hzero => exact ⟨fun _ => hzero, fun _ => rfl⟩
  · next hlimit =>
    exact ⟨fun h => absurd h (ending_ne_zeroLimit _ _), fun h => absurd h hlimit⟩

/-- Whatever configuration is in a file, the program does the same with the file named and with
options in its place: those that were given, and for each that was not the setting of the
configuration. It refuses a limit of zero if no other limit was laid over it, wherever the zero
stands, and then it ends with exit code 1 and leaves the tree as it is. -/
theorem performOn_merged {given : Invocation} {path : Path} {base : Config} {tree : FileTree}
    (named : given.config = some path) (loaded : loadOn path tree = .ok base) :
    (∃ arguments', Spells arguments' (merged given base)) ∧
    ∀ arguments arguments', Spells arguments given → Spells arguments' (merged given base) →
      performOn arguments tree = performOn arguments' tree ∧
      ((performOn arguments tree).1 = .failed (configReason .zeroLimit) ↔
        given.template.text ≠ [] ∧ (merged given base).limit = some 0) ∧
      ((performOn arguments tree).1 = .failed (configReason .zeroLimit) →
        (performOn arguments tree).1.exitCode = 1 ∧ (performOn arguments tree).2 = tree) := by
  refine ⟨exists_spells _, fun arguments arguments' spells spells' => ?_⟩
  -- A file that was loaded has a path that is not empty, so the path can be given on a command
  -- line.
  have hpath : ∀ other ∈ given.config, other.text ≠ [] := by
    intro other hother
    obtain rfl : path = other := Option.some.inj (named.symm.trans hother)
    exact text_ne_nil_of_loadOn loaded
  have hbase : baseOn given tree = .ok base := by rw [baseOn, named, Option.elim_some, loaded]
  have hstandard : baseOn (merged given base) tree = .ok {} := rfl
  have hfirst := performOn_of_spells tree spells hpath
  have hsecond := performOn_of_spells tree spells' nofun
  rw [hbase] at hfirst
  rw [hstandard, settings_merged] at hsecond
  refine ⟨hfirst.trans hsecond.symm, ?_⟩
  rw [hfirst]
  -- An empty template is refused before the limit is looked at.
  by_cases htemplate : given.template.text = []
  · rw [if_pos htemplate]
    exact ⟨⟨nofun, fun h => absurd htemplate h.1⟩, nofun⟩
  · rw [if_neg htemplate, pursue_eq_zeroLimit_iff]
    refine ⟨⟨fun h => ⟨htemplate, h⟩, fun h => h.2⟩, fun hzero => ?_⟩
    rw [settings_ok, if_pos hzero]
    exact ⟨rfl, rfl⟩

/-- A configuration whose limit is zero. -/
def zeroText : Text := "\x7b\"max_variants\": 0, \"order\": \"numeric\"\x7d".toList

/-- A tree with a template and this configuration. -/
def zeroTree : FileTree := addTree.put ["run.json".toList] (.file zeroText.toUtf8)

/-- The file holds a configuration with a limit of zero, which is read without complaint. -/
theorem loadOn_zeroTree : loadOn ⟨"run.json".toList⟩ zeroTree = .ok ⟨.numeric, some 0, false⟩ := by
  have hread : zeroTree.read ⟨"run.json".toList⟩ = .ok zeroText.toUtf8 := rfl
  have htext : Config.ofText? zeroText = some ⟨.numeric, some 0, false⟩ := by decide +kernel
  simp only [loadOn, Config.load, readText, FileAccess.read, stateM_bind_apply, stateM_pure_apply,
    hread, Text.ofUtf8?_toUtf8, htext]

/-- A limit on the command line goes before the zero of the configuration, and without it there is
no run. -/
theorem performOn_merged_zeroTree :
    performOn (["-vcrun.json", "dir/add.zasm", "--max-variants", "+8"].map String.toList) zeroTree =
      performOn (["--order=numeric", "-v", "--max-variants=8", "--", "dir/add.zasm"].map
        String.toList) zeroTree ∧
    (performOn (["-vcrun.json", "dir/add.zasm", "--max-variants", "+8"].map String.toList)
      zeroTree).1 ≠ .failed (configReason .zeroLimit) ∧
    performOn (["--config", "run.json", "dir/add.zasm"].map String.toList) zeroTree =
      (.failed (configReason .zeroLimit), zeroTree) := by
  let path : Path := ⟨"run.json".toList⟩
  let base : Config := ⟨.numeric, some 0, false⟩
  let given : Invocation := ⟨addPath, none, some 8, false, some path, true⟩
  let bare : Invocation := ⟨addPath, none, none, false, some path, false⟩
  have hplus : Invocation.limit? "+8".toList = some 8 := by decide
  have hdigit : Invocation.limit? "8".toList = some 8 := by decide
  have hgiven : Spells (["-vcrun.json", "dir/add.zasm", "--max-variants", "+8"].map String.toList)
      given := by
    have hshort : Holds "-vcrun.json".toList ([.flag .verbose, .option .config path.text], none) :=
      @Holds.shortValue 'c' ['v'] path.text [.verbose] .config (.cons ⟨rfl, rfl⟩ .nil) rfl rfl
        (by decide)
    refine ⟨"+8".toList, _, fun _ h => Option.some.inj h ▸ hplus, ?_, .complete hshort
      (.complete (.positional rfl) (.pending (@Holds.longPending .limit rfl) rfl .nil))⟩
    decide
  have hmerged : Spells (["--order=numeric", "-v", "--max-variants=8", "--", "dir/add.zasm"].map
      String.toList) (merged given base) := by
    have hverbose : Holds "-v".toList ([.flag .verbose], none) :=
      @Holds.short 'v' [] [.verbose] (.cons ⟨rfl, rfl⟩ .nil)
    refine ⟨"8".toList, _, fun _ h => Option.some.inj h ▸ hdigit, ?_,
      .complete (@Holds.longValue .order "numeric".toList rfl) (.complete hverbose
        (.complete (@Holds.longValue .limit "8".toList rfl) (.verbatim ["dir/add.zasm".toList])))⟩
    decide
  have hbare : Spells (["--config", "run.json", "dir/add.zasm"].map String.toList) bare := by
    refine ⟨[], _, nofun, ?_, .pending (@Holds.longPending .config rfl) rfl
      (.complete (.positional rfl) .nil)⟩
    decide
  obtain ⟨-, hsame⟩ := @performOn_merged given path base zeroTree rfl loadOn_zeroTree
  obtain ⟨⟨arguments, hspells⟩, hzero⟩ :=
    @performOn_merged bare path base zeroTree rfl loadOn_zeroTree
  obtain ⟨heq, hiff, -⟩ := hsame _ _ hgiven hmerged
  obtain ⟨-, hrefused, hkept⟩ := hzero _ _ hbare hspells
  have hends := hrefused.mpr ⟨by decide, rfl⟩
  exact ⟨heq, fun h => absurd (hiff.mp h).2 (by decide), Prod.ext hends (hkept hends).2⟩

end AsmVariants.Proofs
