import AsmVariants.Proofs.Config.Reading

/-!
# `AsmVariants.Proofs.Config.Storage`: what is saved is loaded

`saveOn` saves a configuration in a file of a tree. The text that it writes is an object with all
three settings (`denotes_toText`), and the overlay of this object is the configuration
(`overlay_membersOf`). So loading gives back what was saved, by what
`AsmVariants.Proofs.Config.Reading` says of all objects. This is `loadOn_saveOn`.

The writer knows only the three settings, so it escapes nothing: the names are plain
(`isPlain_name`) and the limit is written in digits. That it is an object is said through `LaidOut`,
one member behind another, and not by running the reader on the text.
-/

set_option autoImplicit false

namespace AsmVariants.Proofs

open Config (dryRunKey limitKey limitText memberLine orderKey quoted)
open Json (Token)

/-- Saving a configuration in a file of a tree, and the tree that is left. -/
def saveOn (path : Path) (config : Config) (tree : FileTree) :
    Except ConfigError Unit × FileTree :=
  Config.save (m := StateM FileTree) path config tree

/-- A limit as a document. -/
def limitJson (limit : Option UInt64) : Json :=
  limit.elim .null fun most => .number (Text.ofNat most.toNat)

/-- The members of the object that a configuration is saved as. -/
def membersOf (config : Config) : List (Option Text × Json) :=
  [(some orderKey, .string (some config.order.name)), (some limitKey, limitJson config.limit),
    (some dryRunKey, .bool config.dryRun)]

/-! ### The text of a configuration

The text is spelled token by token: the brace, and for each setting its key, a colon and its value.
A line break with an indent is white space between two tokens. -/

/-- A name between quotes is a string that denotes the name, if none of its characters has to be
escaped. -/
theorem spelling_quoted {name : Text} (plain : IsPlain name) :
    Spelling (.leaf (.string (some name))) (quoted name) := by
  rw [quoted, List.append_assoc, List.singleton_append]
  exact .string plain.isBody (.text (encodes_map_toNat name))

/-- The names of the orders need no escapes. -/
theorem isPlain_name (order : PlaceholderOrder) : IsPlain order.name := by
  cases order <;> decide

/-- A limit is written as a number without leading zeros, or as null. -/
theorem spelling_limitText (limit : Option UInt64) :
    Spelling (.leaf (limitJson limit)) (limitText limit) := by
  cases limit with
  | none => exact .null
  | some most =>
    have h := IsNumeral.intro (.inl rfl) (isInteger_ofNat most.toNat) .none .none
    simp only [List.nil_append, List.append_nil] at h
    exact .number h

/-- A boolean is written as its word. -/
theorem spelling_boolText (value : Bool) :
    Spelling (.leaf (.bool value)) (Config.boolText value) := by
  cases value with
  | false => exact .false
  | true => exact .true

/-- A member, in front of what ends its line. -/
theorem LaidOut.member {tokens : List Token} {t key w : Text} {value : Json}
    (front : LaidOut tokens t) (plain : IsPlain key) (spelling : Spelling (.leaf value) w) :
    LaidOut (tokens ++ [.leaf (.string (some key)), .colon, .leaf value])
      (t ++ ([' ', ' '] ++ quoted key ++ [':', ' '] ++ w)) := by
  have hindent : LaidOut tokens (t ++ [' '] ++ [' ']) := (front.space rfl).space rfl
  have hkey := (hindent.token (spelling_quoted plain)).token .colon
  have hvalue := (hkey.space (c := ' ') rfl).token spelling
  simpa using hvalue

/-- A line may end behind any token. -/
theorem LaidOut.newline {tokens : List Token} {t : Text} (front : LaidOut tokens t) :
    LaidOut tokens (t ++ ['\n']) := front.space rfl

/-- The tokens of a saved configuration, one after another. -/
theorem tokensOf_membersOf (config : Config) :
    tokensOf (.object (membersOf config)) =
      [.openObject, .leaf (.string (some orderKey)), .colon,
        .leaf (.string (some config.order.name)), .comma, .leaf (.string (some limitKey)), .colon,
        .leaf (limitJson config.limit), .comma, .leaf (.string (some dryRunKey)), .colon,
        .leaf (.bool config.dryRun), .closeObject] := by
  have hlimit : tokensOf (limitJson config.limit) = [.leaf (limitJson config.limit)] := by
    cases config.limit <;> exact tokensOf_of_isScalar trivial
  rw [membersOf, tokensOf_object_cons]
  simp [memberTokens, tokensOf, hlimit]

/-- The text of a configuration is the object of its settings. -/
theorem denotes_toText (config : Config) : Denotes config.toText (.object (membersOf config)) := by
  have plain : ∀ key ∈ [orderKey, limitKey, dryRunKey], IsPlain key := by decide
  have hopen : LaidOut [.openObject] ['\x7b', '\n'] := (LaidOut.nil.token .openObject).newline
  have horder := (hopen.member (plain orderKey (by simp))
    (spelling_quoted (isPlain_name config.order))).token .comma
  have hlimit := (horder.newline.member (plain limitKey (by simp))
    (spelling_limitText config.limit)).token .comma
  have hdryRun := (hlimit.newline.member (plain dryRunKey (by simp))
    (spelling_boolText config.dryRun)).newline.token .closeObject
  rw [Denotes, tokensOf_membersOf]
  simpa [Config.toText, memberLine] using hdryRun

/-- Each setting is given once, with its value. -/
theorem overlay_membersOf (config : Config) : Overlay (membersOf config) config := by
  have hlimit : orderKey ≠ limitKey := by decide
  have hdryRun : orderKey ≠ dryRunKey ∧ limitKey ≠ dryRunKey := by decide
  refine ⟨?_, ?_, ?_⟩
  · exact .once (show membersOf config = [] ++ _ :: _ from rfl)
      (by simp [hlimit.symm, hdryRun.1.symm]) (.name config.order)
  · refine .once (show membersOf config = [_] ++ _ :: _ from rfl)
      (by simp [hlimit, hdryRun.2.symm]) ?_
    cases config.limit with
    | none => exact .null
    | some most => exact .number most
  · exact .once (show membersOf config = [_, _] ++ _ :: _ from rfl) (by simp [hdryRun])
      (.bool config.dryRun)

/-- A configuration is read back from its text. -/
theorem ofText?_toText (config : Config) : Config.ofText? config.toText = some config := by
  refine (ofText?_eq_some_iff_overlay (denotes_toText config) ?_).mpr (overlay_membersOf config)
  simp [membersOf]

/-! ### Files

Saving is one write, and loading is one read and what is read off the text. -/

section

variable {path : Path} {config : Config} {tree after : FileTree}

/-- Saving is writing the text of the configuration. -/
theorem saveOn_of_ok (h : tree.write path config.toText.toUtf8 = .ok after) :
    saveOn path config tree = (.ok (), after) := by
  simp only [saveOn, Config.save, writeText, FileAccess.write, stateM_bind_apply,
    stateM_pure_apply, h]

/-- Where the text cannot be written, the tree is left as it is. -/
theorem saveOn_of_error {cause : FileError}
    (h : tree.write path config.toText.toUtf8 = .error cause) :
    saveOn path config tree = (.error (.unwritable path cause), tree) := by
  simp only [saveOn, Config.save, writeText, FileAccess.write, stateM_bind_apply,
    stateM_pure_apply, h]

/-- If saving succeeds, the text was written. -/
theorem write_of_saveOn (h : saveOn path config tree = (.ok (), after)) :
    tree.write path config.toText.toUtf8 = .ok after := by
  cases hwrite : tree.write path config.toText.toUtf8 with
  | error cause =>
    rw [saveOn_of_error hwrite] at h
    exact nomatch (Prod.mk.inj h).1
  | ok written =>
    rw [saveOn_of_ok hwrite] at h
    rw [(Prod.mk.inj h).2]

end

/-- What is saved is loaded. Wherever a file can be written, any configuration is saved in it. The
file then holds the text of the configuration, and it is loaded as the same configuration, as is
every file with this text. No other configuration has the same text. -/
theorem loadOn_saveOn (config : Config) :
    (∀ path tree location, tree.target path = .ok location →
      (saveOn path config tree).1 = .ok ()) ∧
    (∀ path tree after, saveOn path config tree = (.ok (), after) →
      after.read path = .ok config.toText.toUtf8 ∧ loadOn path after = .ok config) ∧
    (∀ path tree, tree.read path = .ok config.toText.toUtf8 → loadOn path tree = .ok config) ∧
    ∀ other, config.toText = other.toText → config = other := by
  have hload {path : Path} {tree : FileTree} (held : tree.read path = .ok config.toText.toUtf8) :
      loadOn path tree = .ok config := by
    rw [loadOn_of_read held, ofText?_toText, Option.elim_some]
  refine ⟨fun path tree location htarget => ?_, fun path tree after saved => ?_,
    fun path tree held => hload held, fun other hsame => ?_⟩
  · rw [saveOn_of_ok (write_eq_ok_iff.mpr ⟨location, htarget, rfl⟩)]
  · have hread := read_of_write (write_of_saveOn saved)
    exact ⟨hread, hload hread⟩
  · have hread := ofText?_toText config
    rw [hsame, ofText?_toText] at hread
    exact (Option.some.inj hread).symm

/-- The greatest limit there is comes back, and so does no limit. -/
theorem loadOn_saveOn_empty :
    loadOn runPath (saveOn runPath ⟨.numeric, some 18446744073709551615, true⟩ .empty).2 =
      .ok ⟨.numeric, some 18446744073709551615, true⟩ ∧
    (saveOn runPath {} .empty).1 = .ok () ∧
    loadOn runPath (saveOn runPath {} .empty).2 = .ok {} ∧
    (⟨.numeric, none, false⟩ : Config).toText ≠ ({} : Config).toText := by
  have htarget : FileTree.empty.target runPath = .ok ["run.json".toList] := rfl
  obtain ⟨hsaved, hloaded, -, -⟩ := loadOn_saveOn ⟨.numeric, some 18446744073709551615, true⟩
  obtain ⟨hsaved', hloaded', -, -⟩ := loadOn_saveOn {}
  obtain ⟨-, -, -, hsame⟩ := loadOn_saveOn ⟨.numeric, none, false⟩
  exact ⟨(hloaded runPath .empty _ (Prod.ext (hsaved _ _ _ htarget) rfl)).2,
    hsaved' _ _ _ htarget, (hloaded' runPath .empty _ (Prod.ext (hsaved' _ _ _ htarget) rfl)).2,
    fun h => absurd (hsame _ h) (by decide)⟩

end AsmVariants.Proofs
