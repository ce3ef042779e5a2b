import AsmVariants.Config.Storage
import AsmVariants.Files.Tree
import AsmVariants.Proofs.Json.Reader
import AsmVariants.Proofs.Output
import AsmVariants.Proofs.Placeholder.Order

/-!
# `AsmVariants.Proofs.Config.Reading`: a configuration object lies over the defaults

`loadOn` is the configuration that a file of a tree holds. `Overlay` says which configuration the
members of an object make: a setting that is given once, with a value that is legal for it, has that
value, and a setting that is not given has its default. `Faulty` says what is wrong with all other
objects. Neither looks at members with other keys, or at the order of the members.

`loadOn_object` is the main statement. It is about every text that denotes an object with keys that
are texts, in the sense of `Denotes`, so white space, escapes and the depth of the values that are
not looked at do not matter. It rests on one fact for each setting: `setting?_eq_some_iff` says when
it is read, and `setting?_eq_none_iff` when it is not.

The three settings differ in the values that are legal for them, and that is all. `OrderValue`,
`LimitValue` and `DryRunValue` say which these are, and the reader of each accepts exactly those
(`orderOfJson?_eq_some_iff`, `limitOfJson?_eq_some_iff`, `dryRunOfJson?_eq_some_iff`). What is said
of a setting has such a reader as a parameter.
-/

set_option autoImplicit false

namespace AsmVariants.Proofs

open Config (dryRunKey dryRunOfJson? limitKey limitOfJson? ofValues? orderKey orderOfJson? setting?
  valuesAt)

/-! ### What an object says

Each of these is about the list of members alone. A member without a key is one whose key is no
text, and an object with such a member is left out in the main statement. -/

/-- The values that are legal for the order. -/
inductive OrderValue : Json → PlaceholderOrder → Prop
  | name (order : PlaceholderOrder) : OrderValue (.string (some order.name)) order
  | onlyKey (order : PlaceholderOrder) : OrderValue (.object [(some order.name, .null)]) order

/-- The values that are legal for the limit. -/
inductive LimitValue : Json → Option UInt64 → Prop
  | null : LimitValue .null none
  | number (most : UInt64) : LimitValue (.number (Text.ofNat most.toNat)) (some most)

/-- The values that are legal for the dry run. -/
inductive DryRunValue : Json → Bool → Prop
  | bool (value : Bool) : DryRunValue (.bool value) value

/-- A setting is left out and has its default, or it is given once, with a legal value. -/
inductive Given {α : Type} (members : List (Option Text × Json)) (key : Text)
    (legal : Json → α → Prop) (standard : α) : α → Prop
  | leftOut (absent : ∀ member ∈ members, member.1 ≠ some key) :
      Given members key legal standard standard
  | once {before behind : List (Option Text × Json)} {value : Json} {a : α}
      (split : members = before ++ (some key, value) :: behind)
      (no_other : ∀ member ∈ before ++ behind, member.1 ≠ some key) (isLegal : legal value a) :
      Given members key legal standard a

/-- The configuration that the members of an object make. -/
structure Overlay (members : List (Option Text × Json)) (config : Config) : Prop where
  order : Given members orderKey OrderValue .firstSeen config.order
  limit : Given members limitKey LimitValue none config.limit
  dryRun : Given members dryRunKey DryRunValue false config.dryRun

/-- A setting is given twice, or with a value that is not legal. -/
inductive FaultyAt {α : Type} (members : List (Option Text × Json)) (key : Text)
    (legal : Json → α → Prop) : Prop
  | twice {before between behind : List (Option Text × Json)} {value other : Json}
      (split : members =
        before ++ (some key, value) :: (between ++ (some key, other) :: behind))
  | illegal {value : Json} (mem : (some key, value) ∈ members)
      (not_legal : ∀ a, ¬ legal value a)

/-- Some setting is given twice, or with a value that is not legal. -/
inductive Faulty (members : List (Option Text × Json)) : Prop
  | order (h : FaultyAt members orderKey OrderValue)
  | limit (h : FaultyAt members limitKey LimitValue)
  | dryRun (h : FaultyAt members dryRunKey DryRunValue)

/-- The members of an object that are settings. -/
def settingsOf (members : List (Option Text × Json)) : List (Option Text × Json) :=
  members.filter fun member => [some orderKey, some limitKey, some dryRunKey].contains member.1

/-! ### Files -/

/-- The configuration in a file of a tree. -/
def loadOn (path : Path) (tree : FileTree) : Except ConfigError Config :=
  (Config.load (m := StateM FileTree) path tree).1

/-- Loading a configuration leaves the tree as it is. -/
theorem load_eq (path : Path) (tree : FileTree) :
    Config.load (m := StateM FileTree) path tree = (loadOn path tree, tree) := by
  simp only [loadOn, Config.load, readText, FileAccess.read, stateM_bind_apply]
  cases tree.read path with
  | error cause => rfl
  | ok bytes =>
    dsimp only
    cases Text.ofUtf8? bytes with
    | none => rfl
    | some text =>
      dsimp only [stateM_pure_apply]
      cases Config.ofText? text <;> rfl

/-- What is loaded is told by the text that the file holds. -/
theorem loadOn_of_read {path : Path} {tree : FileTree} {t : Text}
    (held : tree.read path = .ok t.toUtf8) :
    loadOn path tree = (Config.ofText? t).elim (.error .malformed) .ok := by
  simp only [loadOn, Config.load, readText, FileAccess.read, stateM_bind_apply, stateM_pure_apply,
    held, Text.ofUtf8?_toUtf8]
  cases Config.ofText? t <;> rfl

/-! ### Values -/

/-- An order is read from its name, alone or as the only key of an object with nothing under it, and
from no other value. -/
theorem orderOfJson?_eq_some_iff {value : Json} {order : PlaceholderOrder} :
    orderOfJson? value = some order ↔ OrderValue value order := by
  constructor
  · intro h
    unfold orderOfJson? at h
    split at h
    · rw [orderOfName?_eq_some_iff] at h
      exact h ▸ .name order
    · rw [orderOfName?_eq_some_iff] at h
      exact h ▸ .onlyKey order
    · exact nomatch h
  · rintro (_ | _)
    · exact PlaceholderOrder.ofName?_name order
    · exact PlaceholderOrder.ofName?_name order

/-- The digits of a limit are those of the number that it denotes, because a number has no leading
zeros. -/
theorem limitOfJson?_eq_some_iff {value : Json} (isNumeral : ∀ w, value = .number w → IsNumeral w)
    {limit : Option UInt64} : limitOfJson? value = some limit ↔ LimitValue value limit := by
  constructor
  · intro h
    unfold limitOfJson? at h
    split at h
    · obtain rfl := Option.some.inj h
      exact .null
    · next w =>
      -- A numeral that is all digits is an integer part, and this one denotes the limit.
      obtain ⟨most, hmost, rfl⟩ := Option.map_eq_some_iff.mp h
      obtain ⟨-, digits, hvalue⟩ := toUInt64?_eq_some_iff.mp hmost
      have hdigits := ((isNumeral w rfl).isInteger digits).ofNat_eq
      rw [hvalue] at hdigits
      exact hdigits ▸ .number most
    · exact nomatch h
  · rintro (_ | most)
    · rfl
    · rw [limitOfJson?, Text.toUInt64?_ofNat, Option.map_some]

/-- Whether to write is read from a boolean, and from no other value. -/
theorem dryRunOfJson?_eq_some_iff {value : Json} {dryRun : Bool} :
    dryRunOfJson? value = some dryRun ↔ DryRunValue value dryRun := by
  constructor
  · intro h
    unfold dryRunOfJson? at h
    split at h
    · obtain rfl := Option.some.inj h
      exact .bool _
    · exact nomatch h
  · rintro ⟨⟩
    rfl

/-! ### Settings

The values under a key are those of all members with this key, in order. A setting is read from this
list, so one lemma is enough for all three of them. -/

section

variable {members : List (Option Text × Json)} {key : Text} {value : Json}

/-- The values at a key are those of the members with this key. -/
theorem mem_valuesAt : value ∈ valuesAt key members ↔ (some key, value) ∈ members := by
  simp [valuesAt]

/-- There is no value at a key that no member has. -/
theorem valuesAt_eq_nil_iff :
    valuesAt key members = [] ↔ ∀ member ∈ members, member.1 ≠ some key := by
  simp [valuesAt, List.filterMap_eq_nil_iff]

/-- A member with the key has its value between those of the members on both sides. -/
theorem valuesAt_append_cons (before behind : List (Option Text × Json)) :
    valuesAt key (before ++ (some key, value) :: behind) =
      valuesAt key before ++ value :: valuesAt key behind := by
  simp [valuesAt]

/-- The first value at a key is that of the first member with the key. The other values come from
the members behind it. -/
theorem exists_of_valuesAt_eq_cons {values : List Json}
    (h : valuesAt key members = value :: values) :
    ∃ before behind, members = before ++ (some key, value) :: behind ∧
      (∀ member ∈ before, member.1 ≠ some key) ∧ valuesAt key behind = values := by
  obtain ⟨before, ⟨name, found⟩, behind, hsplit, hbefore, hfound, hbehind⟩ :=
    List.filterMap_eq_cons_iff.mp h
  rw [Option.ite_none_right_eq_some] at hfound
  obtain ⟨rfl, hvalue⟩ := hfound
  obtain rfl := Option.some.inj hvalue
  refine ⟨before, behind, hsplit, valuesAt_eq_nil_iff.mp ?_, hbehind⟩
  exact List.filterMap_eq_nil_iff.mpr hbefore

section

variable {α : Type} {read? : Json → Option α} {legal : Json → α → Prop} {standard a : α}
  (reads : ∀ value, (some key, value) ∈ members → ∀ a, read? value = some a ↔ legal value a)

include reads

/-- A setting is read exactly if it is left out or given once with a value that is legal, and it is
read as what its value says. This holds of all three settings, since each of them is read from
exactly the values that are legal for it. -/
theorem setting?_eq_some_iff :
    setting? read? standard (valuesAt key members) = some a ↔
      Given members key legal standard a := by
  constructor
  · intro h
    unfold setting? at h
    split at h
    · next hvalues =>
      obtain rfl := Option.some.inj h
      exact .leftOut (valuesAt_eq_nil_iff.mp hvalues)
    · next value hvalues =>
      obtain ⟨before, behind, rfl, hbefore, hbehind⟩ := exists_of_valuesAt_eq_cons hvalues
      rw [valuesAt_eq_nil_iff] at hbehind
      exact .once rfl (List.forall_mem_append.mpr ⟨hbefore, hbehind⟩)
        ((reads value (by simp) a).mp h)
    · exact nomatch h
  · -- Nothing under the key makes the standard value, and one value makes what is read from it.
    rintro (absent | ⟨rfl, no_other, isLegal⟩)
    · rw [valuesAt_eq_nil_iff.mpr absent]
      rfl
    · obtain ⟨hbefore, hbehind⟩ := List.forall_mem_append.mp no_other
      rw [valuesAt_append_cons, valuesAt_eq_nil_iff.mpr hbefore, valuesAt_eq_nil_iff.mpr hbehind]
      exact (reads _ (by simp) a).mpr isLegal

/-- A setting is not read exactly if it is given twice or with a value that is not legal. It makes
no difference where among the members that is. -/
theorem setting?_eq_none_iff :
    setting? read? standard (valuesAt key members) = none ↔ FaultyAt members key legal := by
  constructor
  · intro h
    unfold setting? at h
    split at h
    · exact nomatch h
    · next value hvalues =>
      have hmem : (some key, value) ∈ members := mem_valuesAt.mp (by simp [hvalues])
      -- There is one value, and it would be read if it were legal.
      refine .illegal hmem fun a isLegal => ?_
      rw [(reads value hmem a).mpr isLegal] at h
      exact nomatch h
    · next hnil hsingle =>
      -- There are neither none nor one, so there is a second value behind the first.
      cases hvalues : valuesAt key members with
      | nil => exact absurd hvalues hnil
      | cons value values =>
        cases values with
        | nil => exact absurd hvalues (hsingle value)
        | cons other values =>
          obtain ⟨before, rest, rfl, -, hrest⟩ := exists_of_valuesAt_eq_cons hvalues
          obtain ⟨between, behind, rfl, -, -⟩ := exists_of_valuesAt_eq_cons hrest
          exact .twice rfl
  · rintro (⟨rfl⟩ | ⟨mem, not_legal⟩)
    · -- With the key given twice there are two values at least, whatever else is there.
      rw [valuesAt_append_cons, valuesAt_append_cons]
      cases valuesAt key _ with
      | nil => cases valuesAt key _ <;> rfl
      | cons first values => cases values <;> rfl
    · have hmem := mem_valuesAt.mpr mem
      unfold setting?
      split
      · next hvalues => exact absurd hmem (by simp [hvalues])
      · next value hvalues =>
        -- The faulty value is the only one.
        obtain rfl : _ = value := by simpa [hvalues] using hmem
        exact Option.eq_none_iff_forall_ne_some.mpr fun a h => not_legal a ((reads _ mem a).mp h)
      · rfl

end

/-! ### Objects

An object is read if all three settings are, and it is faulty if one of them is. The order of its
members does not matter: one value has one order, and more than one are refused in any. -/

/-- A configuration is read if each of its settings is. -/
theorem ofValues?_eq_some_iff {order limit dryRun : List Json} {config : Config} :
    ofValues? order limit dryRun = some config ↔
      setting? orderOfJson? .firstSeen order = some config.order ∧
        setting? limitOfJson? none limit = some config.limit ∧
          setting? dryRunOfJson? false dryRun = some config.dryRun := by
  rcases config with ⟨_, _, _⟩
  simp only [ofValues?]
  cases setting? orderOfJson? .firstSeen order with
  | none => simp
  | some order =>
    cases setting? limitOfJson? none limit with
    | none => simp
    | some limit => cases setting? dryRunOfJson? false dryRun <;> simp

/-- A configuration is not read if one of its settings is not, whichever it is. -/
theorem ofValues?_eq_none_iff {order limit dryRun : List Json} :
    ofValues? order limit dryRun = none ↔
      setting? orderOfJson? .firstSeen order = none ∨ setting? limitOfJson? none limit = none ∨
        setting? dryRunOfJson? false dryRun = none := by
  simp only [ofValues?]
  cases setting? orderOfJson? .firstSeen order with
  | none => simp
  | some order =>
    cases setting? limitOfJson? none limit with
    | none => simp
    | some limit => cases setting? dryRunOfJson? false dryRun <;> simp

variable {t : Text}

/-- What is read of a text that denotes an object depends on the values at the three keys alone. -/
theorem ofText?_of_denotes (denotes : Denotes t (.object members))
    (keyed : ∀ member ∈ members, member.1 ≠ none) :
    Config.ofText? t = ofValues? (valuesAt orderKey members) (valuesAt limitKey members)
      (valuesAt dryRunKey members) := by
  have hkeys : ¬ members.any (·.1.isNone) = true := by
    rw [List.any_eq_true]
    rintro ⟨member, hmem, hnone⟩
    exact keyed member hmem (Option.isNone_iff_eq_none.mp hnone)
  rw [Config.ofText?, ofText?_eq_some_iff.mpr denotes, Option.bind_some, Config.ofJson?,
    if_neg hkeys]

/-- Settings that are given in another order are read in the same way. -/
theorem setting?_perm {α : Type} {read? : Json → Option α} {standard : α}
    {values others : List Json} (h : values.Perm others) :
    setting? read? standard values = setting? read? standard others := by
  -- None, one or more: one value is read, and with more of them none is looked at.
  cases values with
  | nil => rw [List.nil_perm.mp h]
  | cons value values =>
    cases values with
    | nil => rw [List.singleton_perm.mp h]
    | cons value' values =>
      cases others with
      | nil => exact nomatch h.length_eq
      | cons other others =>
        cases others with
        | nil => exact nomatch h.length_eq
        | cons other' others => rfl

/-- Members with other keys make no difference to the values of a setting. -/
theorem valuesAt_settingsOf (hkey : some key ∈ [some orderKey, some limitKey, some dryRunKey]) :
    valuesAt key (settingsOf members) = valuesAt key members := by
  rw [valuesAt, valuesAt, settingsOf, List.filterMap_filter]
  refine List.filterMap_congr fun member _ => ?_
  split
  · rfl
  · next hother =>
    have hname : member.1 ≠ some key := by
      rintro hname
      rw [hname, List.contains_iff_mem] at hother
      exact hother hkey
    exact (if_neg hname).symm

/-- What an object says depends on its settings alone, in any order. -/
theorem ofText?_eq_of_perm {t' : Text} {members' : List (Option Text × Json)}
    (denotes : Denotes t (.object members)) (keyed : ∀ member ∈ members, member.1 ≠ none)
    (denotes' : Denotes t' (.object members')) (keyed' : ∀ member ∈ members', member.1 ≠ none)
    (perm : (settingsOf members').Perm (settingsOf members)) :
    Config.ofText? t' = Config.ofText? t := by
  have hvalues (key : Text) (hkey : some key ∈ [some orderKey, some limitKey, some dryRunKey]) :
      (valuesAt key members').Perm (valuesAt key members) := by
    have hsame {members : List (Option Text × Json)} :
        valuesAt key (settingsOf members) = valuesAt key members := valuesAt_settingsOf hkey
    rw [← hsame, ← @hsame members]
    exact perm.filterMap _
  rw [ofText?_of_denotes denotes keyed, ofText?_of_denotes denotes' keyed', ofValues?, ofValues?,
    setting?_perm (hvalues orderKey (by decide)), setting?_perm (hvalues limitKey (by decide)),
    setting?_perm (hvalues dryRunKey (by decide))]

/-- An object is read as its overlay. -/
theorem ofText?_eq_some_iff_overlay (denotes : Denotes t (.object members))
    (keyed : ∀ member ∈ members, member.1 ≠ none) {config : Config} :
    Config.ofText? t = some config ↔ Overlay members config := by
  rw [ofText?_of_denotes denotes keyed, ofValues?_eq_some_iff,
    setting?_eq_some_iff fun _ _ _ => orderOfJson?_eq_some_iff,
    setting?_eq_some_iff fun _ hmem _ =>
      limitOfJson?_eq_some_iff fun _ hw => denotes.isNumeral (hw ▸ hmem),
    setting?_eq_some_iff fun _ _ _ => dryRunOfJson?_eq_some_iff]
  exact ⟨fun ⟨order, limit, dryRun⟩ => ⟨order, limit, dryRun⟩,
    fun ⟨order, limit, dryRun⟩ => ⟨order, limit, dryRun⟩⟩

/-- An object is not read exactly if one of its settings is faulty. -/
theorem ofText?_eq_none_iff_faulty (denotes : Denotes t (.object members))
    (keyed : ∀ member ∈ members, member.1 ≠ none) :
    Config.ofText? t = none ↔ Faulty members := by
  rw [ofText?_of_denotes denotes keyed, ofValues?_eq_none_iff,
    setting?_eq_none_iff fun _ _ _ => orderOfJson?_eq_some_iff,
    setting?_eq_none_iff fun _ hmem _ =>
      limitOfJson?_eq_some_iff fun _ hw => denotes.isNumeral (hw ▸ hmem),
    setting?_eq_none_iff fun _ _ _ => dryRunOfJson?_eq_some_iff]
  constructor
  · rintro (h | h | h)
    · exact .order h
    · exact .limit h
    · exact .dryRun h
  · rintro (h | h | h)
    · exact .inl h
    · exact .inr (.inl h)
    · exact .inr (.inr h)

/-- A configuration object is read as settings laid over the defaults. A text that denotes an
object, whose keys are texts, is loaded as the configuration that its members make, if no setting is
given twice or with a value that is not legal. Otherwise loading fails, since the text is malformed.
Any other object with the same settings, in any order and among any other members, is loaded with
the same result. -/
theorem loadOn_object {path : Path} {tree : FileTree} (denotes : Denotes t (.object members))
    (keyed : ∀ member ∈ members, member.1 ≠ none) (held : tree.read path = .ok t.toUtf8) :
    (∀ config, loadOn path tree = .ok config ↔ Overlay members config) ∧
    (¬ Faulty members → ∃ config, loadOn path tree = .ok config) ∧
    (Faulty members → loadOn path tree = .error .malformed) ∧
    ∀ path' tree' t' members', Denotes t' (.object members') →
      (∀ member ∈ members', member.1 ≠ none) → tree'.read path' = .ok t'.toUtf8 →
      (settingsOf members').Perm (settingsOf members) → loadOn path' tree' = loadOn path tree := by
  have hload := loadOn_of_read held
  refine ⟨fun config => ?_, fun sound => ?_, fun faulty => ?_, ?_⟩
  · rw [← ofText?_eq_some_iff_overlay denotes keyed, hload]
    cases Config.ofText? t <;> simp
  · rw [← ofText?_eq_none_iff_faulty denotes keyed, ← ne_eq, Option.ne_none_iff_exists'] at sound
    obtain ⟨config, hconfig⟩ := sound
    exact ⟨config, by rw [hload, hconfig, Option.elim_some]⟩
  · rw [hload, (ofText?_eq_none_iff_faulty denotes keyed).mpr faulty, Option.elim_none]
  · intro path' tree' t' members' denotes' keyed' held' perm
    rw [hload, loadOn_of_read held', ofText?_eq_of_perm denotes keyed denotes' keyed' perm]

end

/-- The file that the examples are in. -/
def runPath : Path := ⟨"run.json".toList⟩

/-- A tree with a text in one file. -/
def treeWith (t : Text) : FileTree := FileTree.empty.put ["run.json".toList] (.file t.toUtf8)

/-- The file holds the text. -/
theorem read_treeWith (t : Text) : (treeWith t).read runPath = .ok t.toUtf8 := rfl

/-- A configuration between members with other keys, some of which have no text. -/
def mixedText : Text :=
  ("\n\x7b \"x\" : [[-1.5e2, \x7b\"\\ud800\":\x7b\x7d\x7d], \"order\"],\t\"\\u006frder\":" ++
    "\x7b\"numeric\": null\x7d,\r\"max_variants\":18446744073709551615, " ++
    "\"x\": \"\\ud83d \"\x7d ").toList

/-- The members of the object that this text denotes. -/
def mixedMembers : List (Option Text × Json) :=
  [(some "x".toList, .array [.array [.number "-1.5e2".toList, .object [(none, .object [])]],
      .string (some "order".toList)]),
    (some "order".toList, .object [(some "numeric".toList, .null)]),
    (some "max_variants".toList, .number "18446744073709551615".toList),
    (some "x".toList, .string none)]

/-- The same configuration, the other way round. -/
def turnedText : Text :=
  "\x7b\"max_variants\":18446744073709551615,\"order\":\x7b\"numeric\":null\x7d\x7d".toList

/-- An object with a setting that is given twice. -/
def twiceText : Text := "\x7b\"dry_run\":true,\"y\":0,\"dry_run\":true\x7d".toList

set_option maxRecDepth 20000 in
/-- The text denotes an object with these members, by what the reader makes of it. -/
theorem denotes_mixedText : Denotes mixedText (.object mixedMembers) :=
  ofText?_eq_some_iff.mp rfl

/-- Other members and their order do not matter, and a setting may not be given twice. -/
theorem loadOn_mixedText :
    loadOn runPath (treeWith mixedText) = .ok ⟨.numeric, some 18446744073709551615, false⟩ ∧
    loadOn runPath (treeWith turnedText) = loadOn runPath (treeWith mixedText) ∧
    loadOn runPath (treeWith twiceText) = .error .malformed := by
  obtain ⟨hload, -, -, hperm⟩ :=
    loadOn_object denotes_mixedText (by decide) (read_treeWith mixedText)
  have hturned : Denotes turnedText (.object
      [(some "max_variants".toList, .number "18446744073709551615".toList),
        (some "order".toList, .object [(some "numeric".toList, .null)])]) :=
    ofText?_eq_some_iff.mp rfl
  have htwice : Denotes twiceText (.object
      [(some "dry_run".toList, .bool true), (some "y".toList, .number "0".toList),
        (some "dry_run".toList, .bool true)]) :=
    ofText?_eq_some_iff.mp rfl
  obtain ⟨-, -, hfaulty, -⟩ := loadOn_object htwice (by decide) (read_treeWith twiceText)
  refine ⟨(hload _).mpr ⟨?_, ?_, ?_⟩, hperm _ _ _ _ hturned (by decide) (read_treeWith _) ?_,
    hfaulty (.dryRun (.twice (show _ = [] ++ _ :: ([_] ++ _ :: []) from rfl)))⟩
  · exact .once (show mixedMembers = [_] ++ _ :: _ from rfl) (by decide) (.onlyKey .numeric)
  · exact .once (show mixedMembers = [_, _] ++ _ :: _ from rfl) (by decide)
      (.number 18446744073709551615)
  · exact .leftOut (by decide)
  · exact .swap _ _ []

end AsmVariants.Proofs
