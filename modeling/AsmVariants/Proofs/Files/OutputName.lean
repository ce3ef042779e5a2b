import AsmVariants.Proofs.Candidates.Grammar
import AsmVariants.Proofs.Files.Path
import AsmVariants.Proofs.List

/-!
# `AsmVariants.Proofs.Files.OutputName`: the name of an output tells what it is an output of

The name of an output is made from the template's name and the number of the variant. This module
goes the other way. `splitName_cases` says where a name is cut into stem and extension, and
`splitName_insert` that a text without a dot, put behind the stem, becomes part of the stem. So the
stem of an output's name is the template's stem, the mark and the number, and the number is all the
digits at the end (`append_mark_inj`). Stems that hold a mark themselves, or end in digits, make no
difference to that.

The directory is the same text for the template and for its outputs (`parent_variant`). A path is
its anchor and the segments behind it, but not any two go together: `Anchored` says which do, and
`anchor_of_anchored` that these two are read back from the path that they make up.

The main statement is `variant_separates`. It compares paths by `SamePath`, which does not see how
a path is written, so what it keeps apart are different files and not only different texts.
-/

set_option autoImplicit false

namespace AsmVariants.Proofs

open AsmVariants.Path (isTrivial splitName)

/-! ### Stem and extension

A name is cut at its last dot, but not at a dot in front. Both the template's name and an output's
are cut, and the cuts have to be at the same dot. -/

/-- A name without a point behind its first character has no extension. -/
theorem splitName_of_notMem_tail {name : Text} (h : '.' ∉ name.tail) :
    splitName name = (name, none) := by
  cases name with
  | nil => rfl
  | cons c tail =>
    have hpass : ∀ d ∈ tail.reverse, (d != '.') = true :=
      bne_of_notMem (mt List.mem_reverse.mp h)
    rw [splitName, List.reverse_cons, List.dropWhile_append_of_pos hpass]
    by_cases hc : c = '.'
    · subst hc
      rfl
    · simp [hc]

/-- The last point of a name separates the extension, if there is something in front of it. -/
theorem splitName_append_dot {stem extension : Text} (hstem : stem ≠ []) (h : '.' ∉ extension) :
    splitName (stem ++ '.' :: extension) = (stem, some extension) := by
  have hpass : ∀ d ∈ extension.reverse, (d != '.') = true :=
    bne_of_notMem (mt List.mem_reverse.mp h)
  have hreverse : (stem ++ '.' :: extension).reverse =
      extension.reverse ++ '.' :: stem.reverse := by simp
  rw [splitName, hreverse, List.dropWhile_append_of_pos hpass, List.takeWhile_append_of_pos hpass]
  simp [hstem]

/-- A name is cut at its last dot, unless that comes first. -/
theorem splitName_cases (name : Text) :
    '.' ∉ name.tail ∧ splitName name = (name, none) ∨
      ∃ stem extension, name = stem ++ '.' :: extension ∧ stem ≠ [] ∧ '.' ∉ extension ∧
        splitName name = (stem, some extension) := by
  by_cases hdot : '.' ∈ name.tail
  · right
    -- The last dot is the first one from the end.
    obtain ⟨after, before, hcut, hafter⟩ :=
      List.eq_append_cons_of_mem (List.mem_reverse.mpr hdot)
    have htail : name.tail = before.reverse ++ '.' :: after.reverse := by
      have hreverse := congrArg List.reverse hcut
      simpa using hreverse
    cases name with
    | nil => exact absurd hdot List.not_mem_nil
    | cons c tail =>
      have hname : c :: tail = (c :: before.reverse) ++ '.' :: after.reverse :=
        congrArg (c :: ·) htail
      have hextension : '.' ∉ after.reverse := mt List.mem_reverse.mp hafter
      refine ⟨c :: before.reverse, after.reverse, hname, List.cons_ne_nil c _, hextension, ?_⟩
      rw [hname, splitName_append_dot (List.cons_ne_nil c _) hextension]
  · exact .inl ⟨hdot, splitName_of_notMem_tail hdot⟩

/-- What is put behind the stem of a name becomes part of the stem, if there is no dot in it. -/
theorem splitName_insert (name : Text) {mark : Text} (h : '.' ∉ mark) :
    splitName ((splitName name).1 ++ mark ++ (splitName name).2.elim [] ('.' :: ·)) =
      ((splitName name).1 ++ mark, (splitName name).2) := by
  rcases splitName_cases name with ⟨hdot, hcut⟩ | ⟨stem, extension, -, hstem, hdot, hcut⟩
  · rw [hcut]
    show splitName (name ++ mark ++ []) = (name ++ mark, none)
    rw [List.append_nil]
    apply splitName_of_notMem_tail
    cases name with
    | nil => exact mt List.mem_of_mem_tail h
    | cons c tail => exact List.not_mem_append hdot h
  · rw [hcut]
    have hne : stem ++ mark ≠ [] := by simp [hstem]
    exact splitName_append_dot hne hdot

/-- The stem of a path is that of its file name. -/
theorem stem_eq (path : Path) : path.stem = (splitName (path.fileName?.getD [])).1 := by
  rw [Path.stem]
  cases path.fileName? <;> rfl

/-- The extension of a path is that of its file name. -/
theorem extension?_eq (path : Path) :
    path.extension? = (splitName (path.fileName?.getD [])).2 := by
  rw [Path.extension?]
  cases path.fileName? <;> rfl

/-- The stem of an output's name is the template's stem with the mark and the number, and its
extension is the template's. The digits of the number have no point, so the cut is where it was. -/
theorem splitName_variantName (input : Path) (index : Nat) :
    splitName (variantName input index) =
      (input.stem ++ "_replaced_".toList ++ Text.ofNat index, input.extension?) := by
  have hdigits : '.' ∉ Text.ofNat index := fun hmem =>
    absurd (Text.isDigit_of_mem_ofNat hmem) (by decide)
  have hmark : '.' ∉ "_replaced_".toList ++ Text.ofNat index :=
    List.not_mem_append (by decide) hdigits
  have hinsert := splitName_insert (input.fileName?.getD []) hmark
  rw [← stem_eq, ← extension?_eq, ← List.append_assoc] at hinsert
  exact hinsert

/-! ### Reading the number back

Only the digits at the end are looked at. The mark ends with an underscore, so they are the number
and nothing else. -/

/-- The number is all the digits at the end, since there is none at the end of the mark. -/
theorem rtakeWhile_isDigit_mark (stem : Text) (index : Nat) :
    (stem ++ "_replaced_".toList ++ Text.ofNat index).rtakeWhile Char.isDigit =
      Text.ofNat index := by
  have hdigits : ∀ c ∈ (Text.ofNat index).reverse, c.isDigit := fun c hc =>
    Text.isDigit_of_mem_ofNat (List.mem_reverse.mp hc)
  have hmark : (stem ++ "_replaced_".toList).reverse.takeWhile Char.isDigit = [] := by
    rw [List.reverse_append]
    rfl
  rw [List.rtakeWhile, List.reverse_append, List.takeWhile_append_of_pos hdigits, hmark,
    List.append_nil, List.reverse_reverse]

/-- The number and the stem are read back: the number is the digits at the end, as the mark in front
of them does not end with one. -/
theorem append_mark_inj {stem stem' : Text} {i j : Nat}
    (h : stem ++ "_replaced_".toList ++ Text.ofNat i =
      stem' ++ "_replaced_".toList ++ Text.ofNat j) : stem = stem' ∧ i = j := by
  have hdigits := congrArg (List.rtakeWhile Char.isDigit) h
  rw [rtakeWhile_isDigit_mark, rtakeWhile_isDigit_mark] at hdigits
  have hread := congrArg Text.toNat? hdigits
  rw [Text.toNat?_ofNat, Text.toNat?_ofNat] at hread
  rw [hdigits] at h
  exact ⟨List.append_cancel_right (List.append_cancel_right h), Option.some.inj hread⟩

/-- The name of an output determines the number and the name of the template. -/
theorem eq_of_variantName_eq {input other : Path} {i j : Nat}
    (h : variantName input i = variantName other j) :
    input.fileName?.getD [] = other.fileName?.getD [] ∧ i = j := by
  have hcut := congrArg splitName h
  rw [splitName_variantName, splitName_variantName, Prod.mk.injEq] at hcut
  obtain ⟨hstem, hindex⟩ := append_mark_inj hcut.1
  refine ⟨?_, hindex⟩
  rw [← splitName_append (input.fileName?.getD []), ← splitName_append (other.fileName?.getD []),
    ← stem_eq, ← stem_eq, ← extension?_eq, ← extension?_eq, hstem, hcut.2]

/-! ### The directory

The parent of a path is a text that is made up again from segments. To find it unchanged, the anchor
of the path has to be read back from the new text, and `Anchored` is what makes that possible. -/

/-- The anchors that a path can have in front of its segments: a slash in front of any, a dot in
front of an empty one, and none in front of a name. -/
inductive Anchored : Text → List Text → Prop
  | root (segments : List Text) : Anchored ['/'] segments
  | here (segments : List Text) : Anchored ['.'] ([] :: segments)
  | bare {first : Text} (h : isTrivial first = false) (segments : List Text) :
      Anchored [] (first :: segments)

/-- A path that names a file is an anchor and segments that go together. -/
theorem anchored_of_fileName? {path : Path} {name : Text} (h : path.fileName? = some name) :
    Anchored path.anchor ((path.text.drop path.anchor.length).splitOn '/') := by
  obtain ⟨text⟩ := path
  unfold Path.anchor
  split
  · exact .root _
  · next htext =>
    subst htext
    exact .here []
  · next rest htext =>
    subst htext
    have hcut := List.splitOn_append_cons_self (a := '/') [] rest
    rw [List.nil_append] at hcut
    show Anchored ['.'] (('/' :: rest).splitOn '/')
    rw [hcut]
    exact .here _
  · next hroot hdot hhere =>
    show Anchored [] (text.splitOn '/')
    have hjoin : ['/'].intercalate (text.splitOn '/') = text := List.intercalate_splitOn '/'
    cases hcut : text.splitOn '/' with
    | nil => exact absurd hcut (List.splitOn_ne_nil '/' text)
    | cons first segments =>
      rw [hcut] at hjoin
      by_cases hfirst : isTrivial first
      · -- The text would be empty, or one of the texts that have an anchor.
        exfalso
        rw [isTrivial, Bool.or_eq_true, beq_iff_eq, beq_iff_eq] at hfirst
        cases segments with
        | nil =>
          rw [List.intercalate_singleton] at hjoin
          rcases hfirst with rfl | rfl
          · subst hjoin
            cases h
          · exact hdot hjoin.symm
        | cons next segments =>
          rw [List.intercalate_cons_of_ne_nil (List.cons_ne_nil next segments)] at hjoin
          rcases hfirst with rfl | rfl
          · exact hroot _ hjoin.symm
          · exact hhere _ hjoin.symm
      · exact .bare (by simpa using hfirst) segments

/-- A path is read as the anchor and the segments that it is made up of. -/
theorem anchor_of_anchored {anchor : Text} {segments : List Text} (h : Anchored anchor segments)
    (hslash : ∀ segment ∈ segments, '/' ∉ segment) :
    Path.anchor ⟨anchor ++ ['/'].intercalate segments⟩ = anchor := by
  cases h with
  | root => rfl
  | here segments =>
    cases segments with
    | nil => rfl
    | cons next segments => rfl
  | @bare first hfirst segments =>
    have hcut : (['/'].intercalate (first :: segments)).splitOn '/' = first :: segments :=
      List.splitOn_intercalate '/' hslash (List.cons_ne_nil first segments)
    rw [isTrivial, Bool.or_eq_false_iff, beq_eq_false_iff_ne, beq_eq_false_iff_ne] at hfirst
    -- Each of the texts with an anchor would have another first segment.
    unfold Path.anchor
    split
    · next rest htext =>
      replace htext : ['/'].intercalate (first :: segments) = '/' :: rest := htext
      rw [htext, ← List.nil_append ('/' :: rest),
        List.splitOn_append_cons_self_of_not_mem List.not_mem_nil] at hcut
      exact absurd (List.cons.inj hcut).1.symm hfirst.1
    · next htext =>
      replace htext : ['/'].intercalate (first :: segments) = ['.'] := htext
      rw [htext] at hcut
      exact absurd (List.cons.inj hcut).1.symm hfirst.2
    · next rest htext =>
      replace htext : ['/'].intercalate (first :: segments) = '.' :: '/' :: rest := htext
      have hdot : '/' ∉ ['.'] := by decide
      rw [htext, ← List.singleton_append, List.splitOn_append_cons_self_of_not_mem hdot] at hcut
      exact absurd (List.cons.inj hcut).1.symm hfirst.2
    · rfl

/-- The parent of a path keeps the anchor and loses the last segment. -/
theorem parent_of_anchored {anchor name : Text} {front : List Text}
    (h : Anchored anchor (front ++ [name])) (hslash : ∀ segment ∈ front ++ [name], '/' ∉ segment)
    (hname : isTrivial name = false) :
    (Path.mk (anchor ++ ['/'].intercalate (front ++ [name]))).parent =
      ⟨anchor ++ ['/'].intercalate (front.reverse.dropWhile isTrivial).reverse⟩ := by
  have hsegments : (Path.mk (anchor ++ ['/'].intercalate (front ++ [name]))).segmentsFromLast =
      name :: front.reverse := by
    rw [Path.segmentsFromLast, anchor_of_anchored h hslash, List.drop_left,
      List.splitOn_intercalate '/' hslash (by simp), List.reverse_append]
    simp [hname]
  rw [Path.parent, anchor_of_anchored h hslash, hsegments, List.tail_cons]

/-- The first segments of a path can stand behind its anchor, whatever comes behind them. -/
theorem Anchored.append_of_prefix {anchor : Text} {segments front : List Text}
    (h : Anchored anchor segments) (hfront : front <+: segments) (hne : front ≠ [])
    (more : List Text) : Anchored anchor (front ++ more) := by
  cases front with
  | nil => exact absurd rfl hne
  | cons first front =>
    obtain ⟨rest, rfl⟩ := hfront
    cases h with
    | root => exact .root _
    | here => exact .here _
    | bare hfirst => exact .bare hfirst _

/-- A name that is appended behind segments, of which the last is a name, is one segment more. -/
theorem append_intercalate {anchor name : Text} {front : List Text} {last : Text}
    (hlast : isTrivial last = false) (hslash : '/' ∉ last) :
    (Path.mk (anchor ++ ['/'].intercalate (front ++ [last]))).append name =
      ⟨anchor ++ ['/'].intercalate (front ++ [last] ++ [name])⟩ := by
  have hne : last ≠ [] := by
    rintro rfl
    exact absurd hlast (by decide)
  have htext : anchor ++ ['/'].intercalate (front ++ [last]) =
      anchor ++ front.flatMap (· ++ ['/']) ++ last := by
    rw [intercalate_concat, List.append_assoc]
  -- The text ends with the last name, so it is not empty and a slash has to be put behind it.
  have hends : ¬ (anchor ++ ['/'].intercalate (front ++ [last]) = [] ∨
      (anchor ++ ['/'].intercalate (front ++ [last])).getLast? = some '/') := by
    rw [htext, List.getLast?_append_of_ne_nil _ hne]
    rintro (hempty | hend)
    · exact hne (List.append_eq_nil_iff.mp hempty).2
    · exact hslash (List.mem_of_getLast? hend)
  have hmore : anchor ++ ['/'].intercalate (front ++ [last] ++ [name]) =
      anchor ++ front.flatMap (· ++ ['/']) ++ last ++ '/' :: name := by
    rw [intercalate_concat]
    simp
  rw [Path.append, if_neg hends, hmore]
  exact congrArg (fun t => Path.mk (t ++ '/' :: name)) htext

/-- A name that is appended to the parent of a path stands behind the segments of the parent. Where
there are none, the segment between the dot of an anchor and the name is empty. -/
theorem append_parent {path : Path} {name name' : Text} (h : path.fileName? = some name)
    (hname : isTrivial name' = false) : ∃ front, Anchored path.anchor (front ++ [name']) ∧
      (∀ segment ∈ front, '/' ∉ segment) ∧
      path.parent.append name' = ⟨path.anchor ++ ['/'].intercalate (front ++ [name'])⟩ ∧
      path.parent =
        ⟨path.anchor ++ ['/'].intercalate (front.reverse.dropWhile isTrivial).reverse⟩ := by
  have hanchored := anchored_of_fileName? h
  have hinitial := reverse_dropWhile_prefix path
  have hslash : ∀ segment ∈ (path.segmentsFromLast.tail.dropWhile isTrivial).reverse,
      '/' ∉ segment := fun segment hsegment => notMem_of_mem_splitOn (hinitial.subset hsegment)
  have hfirst := List.head?_dropWhile_not isTrivial path.segmentsFromLast.tail
  rw [Path.parent]
  cases hsegments : path.segmentsFromLast.tail.dropWhile isTrivial with
  | cons last others =>
    rw [hsegments] at hinitial hslash hfirst
    have hlast : isTrivial last = false := hfirst
    rw [List.reverse_cons] at hinitial hslash ⊢
    refine ⟨others.reverse ++ [last], hanchored.append_of_prefix hinitial (by simp) _, hslash,
      append_intercalate hlast (hslash last (by simp)), ?_⟩
    simp [hlast]
  | nil =>
    -- The parent is the anchor alone.
    generalize (path.text.drop path.anchor.length).splitOn '/' = segments at hanchored
    generalize path.anchor = anchor at hanchored
    cases hanchored with
    | root => exact ⟨[], .root _, by simp, by simp [Path.append], rfl⟩
    | here => exact ⟨[[]], .here _, by simp, by simp [Path.append], rfl⟩
    | bare => exact ⟨[], .bare hname _, by simp, by simp [Path.append], rfl⟩

/-- The outputs of a template lie in its directory, which is written in the same way. -/
theorem parent_variant {input : Path} {name : Text} (h : input.fileName? = some name)
    (index : Nat) : (input.variant index).parent = input.parent := by
  have hname : isTrivial (variantName input index) = false := by
    have hisName := isName_variantName input index
    rw [FileTree.isName, Bool.and_eq_true, Bool.not_eq_true'] at hisName
    exact hisName.1
  have hslash := slash_notMem_variantName h index
  -- The parent ends in the segments in front of the name, and the parent of the output takes the
  -- new name off again.
  obtain ⟨front, hanchored, hfront, happend, hparent⟩ := append_parent h hname
  have hvariant : input.variant index = input.parent.append (variantName input index) := by
    rw [Path.variant, Path.withFileName, h]
    rfl
  have hall : ∀ segment ∈ front ++ [variantName input index], '/' ∉ segment := by
    intro segment hsegment
    rcases List.mem_append.mp hsegment with hsegment | hsegment
    · exact hfront segment hsegment
    · rwa [List.mem_singleton.mp hsegment]
  rw [hvariant, happend, parent_of_anchored hanchored hall hname, hparent]

/-! ### Outputs that differ

Two paths are the same if they have the same anchor and the same names, so a path has many
spellings. The name at the end is the same in all of them. -/

/-- Two ways to write one path: with one anchor, and with the same names along the way. -/
structure SamePath (a b : Path) : Prop where
  anchor_eq : a.anchor = b.anchor
  names_eq : names a.text = names b.text

/-- Whether two paths are the same is told by their anchors and names. -/
instance (a b : Path) : Decidable (SamePath a b) :=
  decidable_of_iff (a.anchor = b.anchor ∧ names a.text = names b.text)
    ⟨fun h => ⟨h.1, h.2⟩, fun h => ⟨h.anchor_eq, h.names_eq⟩⟩

/-- How a path is written makes no difference to the file name. -/
theorem SamePath.fileName?_eq {a b : Path} (h : SamePath a b) : a.fileName? = b.fileName? := by
  rw [Proofs.fileName?_eq, Proofs.fileName?_eq, h.names_eq]

/-- A name that is appended to a directory is the file name. -/
theorem fileName?_append (directory : Path) {name : Text} (hslash : '/' ∉ name)
    (hname : FileTree.isName name) : (directory.append name).fileName? = some name := by
  obtain ⟨front, hsplit, hfront⟩ := splitOn_append directory hslash
  rw [FileTree.isName, Bool.and_eq_true] at hname
  have hkept : [name].filter (!isTrivial ·) = [name] := List.filter_cons_of_pos hname.1
  have hnames : names (directory.append name).text = names directory.text ++ [name] := by
    rw [names, hsplit, List.filter_append, hfront, hkept]
  rw [fileName?_eq, hnames, List.getLast?_concat, Option.filter_some, if_pos hname.2]

/-- The file name of an output is the name that was made for it. -/
theorem fileName?_variant (input : Path) (index : Nat) :
    (input.variant index).fileName? = some (variantName input index) := by
  have hname := isName_variantName input index
  rw [Path.variant, Path.withFileName]
  cases h : input.fileName? with
  | some name => exact fileName?_append _ (slash_notMem_variantName h index) hname
  | none =>
    -- Without a file name there is neither a stem nor an extension.
    have hvariant : variantName input index = "_replaced_".toList ++ Text.ofNat index := by
      rw [variantName, Path.stem, Path.extension?, h]
      exact List.append_nil _
    have hdigits : '/' ∉ Text.ofNat index := fun hmem =>
      absurd (Text.isDigit_of_mem_ofNat hmem) (by decide)
    have hslash : '/' ∉ variantName input index := by
      rw [hvariant]
      exact List.not_mem_append (by decide) hdigits
    exact fileName?_append _ hslash hname

/-- Outputs differ from each other and from the template. They have its directory and its extension,
and their stem is that of the template with the mark and the number behind it. A template with
another file name has none of these outputs, be it in the same directory or elsewhere. -/
theorem variant_separates {input : Path} {name : Text} (h : input.fileName? = some name) :
    (∀ i j, SamePath (input.variant i) (input.variant j) → i = j) ∧
    (∀ i, ¬ SamePath (input.variant i) input ∧
      (input.variant i).parent = input.parent ∧
      (input.variant i).extension? = input.extension? ∧
      (input.variant i).stem = input.stem ++ "_replaced_".toList ++ Text.ofNat i) ∧
    (∀ other : Path, other.fileName? ≠ some name →
      ∀ i j, ¬ SamePath (input.variant i) (other.variant j)) := by
  have hread : ∀ {other : Path} {i j : Nat}, SamePath (input.variant i) (other.variant j) →
      input.fileName?.getD [] = other.fileName?.getD [] ∧ i = j := by
    intro other i j hsame
    have hnames := hsame.fileName?_eq
    rw [fileName?_variant, fileName?_variant] at hnames
    exact eq_of_variantName_eq (Option.some.inj hnames)
  refine ⟨fun i j hsame => (hread hsame).2, fun i => ⟨?_, parent_variant h i, ?_, ?_⟩, ?_⟩
  · intro hsame
    have hnames := hsame.fileName?_eq
    rw [fileName?_variant, h] at hnames
    exact variantName_ne_fileName h i (Option.some.inj hnames)
  · rw [extension?_eq, fileName?_variant, Option.getD_some, splitName_variantName]
  · rw [stem_eq, fileName?_variant, Option.getD_some, splitName_variantName]
  · intro other hother i j hsame
    have hnames := (hread hsame).1
    rw [h, Option.getD_some] at hnames
    cases hfile : other.fileName? with
    | some name' =>
      rw [hfile, Option.getD_some] at hnames
      exact hother (by rw [hfile, hnames])
    | none =>
      -- A file name is not empty.
      rw [hfile, Option.getD_none] at hnames
      rw [hnames, fileName?_eq, Option.filter_eq_some_iff] at h
      have hempty := (List.mem_filter.mp (List.mem_of_getLast? h.1)).2
      exact absurd hempty (by decide)

/-- A template whose name ends in a mark, a number and a dot, in a directory with two slashes. -/
def markedPath : Path := ⟨"lib//x_replaced_1.".toList⟩

/-- It is itself an output of `x.` in the same directory, but no output of the one is an output of
the other. -/
theorem variant_separates_markedPath :
    markedPath.fileName? = some "x_replaced_1.".toList ∧
    (markedPath.variant 12).text = "lib/x_replaced_1_replaced_12.".toList ∧
    (markedPath.variant 12).parent = ⟨"lib".toList⟩ ∧
    (markedPath.variant 12).extension? = some [] ∧
    (markedPath.variant 12).stem = "x_replaced_1_replaced_12".toList ∧
    ¬ SamePath (markedPath.variant 12) markedPath ∧
    ¬ SamePath (markedPath.variant 1) (markedPath.variant 12) ∧
    SamePath ((Path.mk "lib/./x.".toList).variant 1) markedPath ∧
    ¬ SamePath (markedPath.variant 12) ((Path.mk "lib/./x.".toList).variant 1) := by
  have hname : markedPath.fileName? = some "x_replaced_1.".toList := by decide +kernel
  obtain ⟨hindex, hinput, hother⟩ := variant_separates hname
  obtain ⟨hself, hparent, hextension, hstem⟩ := hinput 12
  refine ⟨hname, by decide +kernel, ?_, ?_, ?_, hself, ?_, by decide +kernel, ?_⟩
  · rw [hparent]
    decide +kernel
  · rw [hextension]
    decide +kernel
  · rw [hstem]
    decide +kernel
  · intro hsame
    exact absurd (hindex 1 12 hsame) (by decide)
  · exact hother _ (by decide +kernel) 12 1

end AsmVariants.Proofs
