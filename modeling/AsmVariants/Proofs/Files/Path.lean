import AsmVariants.Decimal.Natural
import AsmVariants.Files.Tree
import AsmVariants.Output
import AsmVariants.Proofs.Candidates
import AsmVariants.Proofs.List

/-!
# `AsmVariants.Proofs.Files.Path`: the names along a path

A path is kept as it was written, with empty segments, single dots and an anchor that is counted
apart. None of these makes a difference to where the path leads, so this module looks at `names`,
the segments that lead somewhere, and says of each operation on paths what it does to them:

* `names_parent`: the parent has all names but the last.
* `fileName?_eq`: the file name is the last name, unless that is two dots.
* `splitOn_append`: a name that is appended becomes the last segment, and the names before it are
  those of the directory.

For the outputs of a template it follows that they lie where the template lies
(`splitOn_variant`), under names that differ from each other (`variantName_injective`) and from the
name of the template (`variantName_ne_fileName`). The path of an output is made of pieces of the
template's path, so it has a newline only if that has one (`newline_notMem_variant`).
-/

set_option autoImplicit false

namespace AsmVariants.Proofs

open AsmVariants.Path (isTrivial splitName)

/-! ### The segments that lead somewhere

An empty segment or a single dot leads nowhere. Leaving these out of the segments of a text gives
its `names`, and every operation on a path is described by what it does to them. -/

/-- The segments of a text between slashes, without those that lead nowhere. -/
def names (t : Text) : List Text := (t.splitOn '/').filter (!isTrivial ·)

/-- An empty text leads nowhere. -/
theorem names_nil : names [] = [] := by decide

/-- The names on both sides of a slash are those of the whole text. -/
theorem names_append_slash (t rest : Text) : names (t ++ '/' :: rest) = names t ++ names rest := by
  rw [names, List.splitOn_append_cons_self, List.filter_append]
  rfl

/-- A slash at the front makes no difference. -/
theorem names_slash (rest : Text) : names ('/' :: rest) = names rest := by
  have h := names_append_slash [] rest
  rwa [names_nil] at h

/-- Dropping segments that lead nowhere leaves those that lead somewhere. -/
theorem filter_dropWhile_isTrivial (segments : List Text) :
    (segments.dropWhile isTrivial).filter (!isTrivial ·) = segments.filter (!isTrivial ·) := by
  induction segments with
  | nil => rfl
  | cons segment segments ih =>
    rw [List.dropWhile_cons]
    split
    · next h => rw [ih, List.filter_cons_of_neg (by simpa using h)]
    · rfl

/-- The names in segments that are put together are those among the segments. -/
theorem names_intercalate {segments : List Text} (h : ∀ segment ∈ segments, '/' ∉ segment) :
    names (['/'].intercalate segments) = segments.filter (!isTrivial ·) := by
  by_cases hempty : segments = []
  · subst hempty
    exact names_nil
  · rw [names, List.splitOn_intercalate '/' h hempty]

/-! ### Anchors

A slash or a dot in front of a path is kept apart from its segments. It leads nowhere, so the names
are those of the whole text. -/

/-- A path begins with its anchor. Where that is a dot, a slash or nothing follows it. -/
theorem anchor_cases (path : Path) :
    path.anchor ++ path.text.drop path.anchor.length = path.text ∧
      (path.anchor = [] ∨ path.anchor = ['/'] ∨
        path.anchor = ['.'] ∧
          ((path.text.drop path.anchor.length).splitOn '/').head? = some []) := by
  unfold Path.anchor
  split
  · next rest htext => simp [htext]
  · next htext => simp [htext]
  · next rest htext =>
    rw [htext]
    refine ⟨rfl, Or.inr (Or.inr ⟨rfl, ?_⟩)⟩
    rw [List.length_singleton, List.drop_succ_cons, List.drop_zero,
      List.splitOn_cons_eq_if_modifyHead]
    rfl
  · exact ⟨rfl, Or.inl rfl⟩

/-- An anchor adds no name to segments that could stand behind it. -/
theorem names_anchor_append (path : Path) {segments : List Text}
    (hslash : ∀ segment ∈ segments, '/' ∉ segment)
    (hinitial : segments <+: (path.text.drop path.anchor.length).splitOn '/') :
    names (path.anchor ++ ['/'].intercalate segments) = segments.filter (!isTrivial ·) := by
  obtain ⟨-, hanchor | hanchor | ⟨hanchor, hhead⟩⟩ := anchor_cases path
  · rw [hanchor]
    exact names_intercalate hslash
  · rw [hanchor]
    exact (names_slash _).trans (names_intercalate hslash)
  · rw [hanchor]
    -- Behind a dot the segments start with an empty one, so the dot is a segment of its own.
    cases segments with
    | nil => decide
    | cons first others =>
      obtain ⟨rest, hrest⟩ := hinitial
      rw [← hrest] at hhead
      obtain rfl : first = [] := Option.some.inj hhead
      rw [List.forall_mem_cons] at hslash
      by_cases hothers : others = []
      · subst hothers
        decide
      · rw [List.intercalate_cons_of_ne_nil hothers]
        show names (['.'] ++ '/' :: ['/'].intercalate others) = _
        rw [names_append_slash, names_intercalate hslash.2]
        rfl

/-- The names of a path, read off its segments from the last to the first. -/
theorem names_eq_reverse (path : Path) :
    names path.text = (path.segmentsFromLast.filter (!isTrivial ·)).reverse := by
  have hnames := names_anchor_append path
    (fun segment hsegment => notMem_of_mem_splitOn hsegment) (List.prefix_refl _)
  rw [List.intercalate_splitOn, (anchor_cases path).1] at hnames
  rw [Path.segmentsFromLast, filter_dropWhile_isTrivial, List.filter_reverse, List.reverse_reverse,
    hnames]

/-! ### File names and parents -/

/-- The file name is the last name, unless that is two dots. The path is read from its end, where
the segments that lead nowhere are dropped first. -/
theorem fileName?_eq (path : Path) :
    path.fileName? = (names path.text).getLast?.filter (· != ['.', '.']) := by
  have hhead : path.segmentsFromLast.head? =
      (path.segmentsFromLast.filter (!isTrivial ·)).head? := by
    rw [List.head?_filter, List.find?_not_eq_head?_dropWhile, Path.segmentsFromLast,
      List.dropWhile_idempotent]
  rw [Path.fileName?, hhead, names_eq_reverse, List.getLast?_reverse]

/-- The segments of the parent are the first ones of the path. -/
theorem reverse_dropWhile_prefix (path : Path) :
    (path.segmentsFromLast.tail.dropWhile isTrivial).reverse <+:
      (path.text.drop path.anchor.length).splitOn '/' := by
  have hsuffix : path.segmentsFromLast.tail.dropWhile isTrivial <:+
      ((path.text.drop path.anchor.length).splitOn '/').reverse :=
    ((List.dropWhile_suffix _).trans (List.tail_suffix _)).trans (List.dropWhile_suffix _)
  rw [← List.reverse_suffix, List.reverse_reverse]
  exact hsuffix

/-- The parent has all names but the last. -/
theorem names_parent (path : Path) : names path.parent.text = (names path.text).dropLast := by
  have hinitial := reverse_dropWhile_prefix path
  have hslash : ∀ segment ∈ (path.segmentsFromLast.tail.dropWhile isTrivial).reverse,
      '/' ∉ segment := fun segment hsegment =>
    notMem_of_mem_splitOn (hinitial.subset hsegment)
  -- The last segment is a name, since those that lead nowhere were dropped in front of it.
  have htail : path.segmentsFromLast.tail.filter (!isTrivial ·) =
      (path.segmentsFromLast.filter (!isTrivial ·)).tail := by
    have hfirst := List.head?_dropWhile_not isTrivial
      ((path.text.drop path.anchor.length).splitOn '/').reverse
    rw [← Path.segmentsFromLast] at hfirst
    cases hsegments : path.segmentsFromLast with
    | nil => rfl
    | cons last others =>
      rw [hsegments] at hfirst
      have hlast : isTrivial last = false := hfirst
      rw [List.filter_cons_of_pos (by simp [hlast])]
      rfl
  rw [Path.parent, names_anchor_append path hslash hinitial, names_eq_reverse, List.filter_reverse,
    filter_dropWhile_isTrivial, htail, List.dropLast_reverse]

/-! ### Appending a name -/

/-- A name that is appended to a directory is the last segment. The names before it are those of the
directory. -/
theorem splitOn_append (directory : Path) {name : Text} (h : '/' ∉ name) :
    ∃ front, (directory.append name).text.splitOn '/' = front ++ [name] ∧
      front.filter (!isTrivial ·) = names directory.text := by
  have hslash : ∀ t : Text, (t ++ '/' :: name).splitOn '/' = t.splitOn '/' ++ [name] := by
    intro t
    rw [List.splitOn_append_cons_self, List.splitOn_eq_singleton h]
  rw [Path.append]
  split
  · next hdirectory =>
    rcases hdirectory with hempty | hlast
    · rw [hempty]
      exact ⟨[], List.splitOn_eq_singleton h, names_nil.symm⟩
    · -- The slash at the end of the directory is the one in front of the name.
      obtain ⟨t, ht⟩ := List.getLast?_eq_some_iff.mp hlast
      rw [ht]
      refine ⟨t.splitOn '/', ?_, ?_⟩
      · rw [List.append_assoc]
        exact hslash t
      · rw [names_append_slash, names_nil, List.append_nil]
        rfl
  · exact ⟨directory.text.splitOn '/', hslash directory.text, rfl⟩

/-! ### The names of outputs

A name has the number in front of its extension. Names with different numbers differ because numbers
are written differently, and none is the name of the template because all of them are longer. -/

/-- The two parts of a file name make up the name. -/
theorem splitName_append (name : Text) :
    (splitName name).1 ++ (splitName name).2.elim [] ('.' :: ·) = name := by
  -- Seen from its end, the name is what comes before the first dot, the dot, and the rest.
  have hsplit : name.reverse.takeWhile (· != '.') ++ name.reverse.dropWhile (· != '.') =
      name.reverse := List.takeWhile_append_dropWhile
  rw [splitName]
  split
  · next dot beforeDot hdrop =>
    split
    · exact List.append_nil name
    · have hdot : dot = '.' := by
        have hfirst := List.head?_dropWhile_not (· != '.') name.reverse
        rw [hdrop] at hfirst
        simpa using hfirst
      rw [hdrop, hdot] at hsplit
      have hname := congrArg List.reverse hsplit
      simpa using hname
  · exact List.append_nil name

/-- The file name of an output. -/
def variantName (input : Path) (index : Nat) : Text :=
  input.stem ++ "_replaced_".toList ++ Text.ofNat index ++
    input.extension?.elim [] fun extension => '.' :: extension

section

variable {input : Path} {name : Text} (h : input.fileName? = some name)

include h

/-- Without its mark the name of an output is the name of the template. -/
theorem stem_append_extension :
    input.stem ++ (input.extension?.elim [] fun extension => '.' :: extension) = name := by
  rw [Path.stem, Path.extension?, h]
  exact splitName_append name

/-- The name of an output is not the name of its template, as it is longer by the mark. -/
theorem variantName_ne_fileName (index : Nat) : variantName input index ≠ name := by
  intro heq
  have hlength := congrArg List.length (heq.trans (stem_append_extension h).symm)
  simp [variantName] at hlength
  omega

/-- A file name is a segment, so it has no slash. -/
theorem slash_notMem_fileName : '/' ∉ name := by
  rw [fileName?_eq, Option.filter_eq_some_iff] at h
  exact notMem_of_mem_splitOn (List.mem_of_mem_filter (List.mem_of_getLast? h.1))

end

/-- The mark in the name of an output tells it from the segments that name no file. -/
theorem isName_variantName (input : Path) (index : Nat) :
    FileTree.isName (variantName input index) := by
  have hmark : '_' ∈ variantName input index := by simp [variantName]
  have hne : ∀ segment : Text, '_' ∉ segment → variantName input index ≠ segment := by
    rintro segment hsegment rfl
    exact hsegment hmark
  have hempty := hne [] (by decide)
  have hdot := hne ['.'] (by decide)
  have hdots := hne ['.', '.'] (by decide)
  simp [FileTree.isName, isTrivial, hempty, hdot, hdots]

/-- The name of an output has no slash either: it is made of pieces of the file name, of the mark
and of digits. -/
theorem slash_notMem_variantName {input : Path} {name : Text} (h : input.fileName? = some name)
    (index : Nat) : '/' ∉ variantName input index := by
  have hname := slash_notMem_fileName h
  rw [← stem_append_extension h, List.mem_append, not_or] at hname
  have hdigits : '/' ∉ Text.ofNat index := fun hmem =>
    absurd (Text.isDigit_of_mem_ofNat hmem) (by decide)
  have hmark : '/' ∉ "_replaced_".toList := by decide
  exact List.not_mem_append (List.not_mem_append (List.not_mem_append hname.1 hmark) hdigits)
    hname.2

/-- An output lies where the template lies, under its own name. -/
theorem splitOn_variant {input : Path} {name : Text} (h : input.fileName? = some name)
    (index : Nat) :
    ∃ front, (input.variant index).text.splitOn '/' = front ++ [variantName input index] ∧
      front.filter (!isTrivial ·) = (names input.text).dropLast := by
  have hvariant : input.variant index = input.parent.append (variantName input index) := by
    rw [Path.variant, Path.withFileName, h]
    rfl
  rw [hvariant, ← names_parent]
  exact splitOn_append input.parent (slash_notMem_variantName h index)

/-- Outputs with different numbers have different names. -/
theorem variantName_injective (input : Path) : Function.Injective (variantName input) := by
  intro i j h
  have hdigits : Text.ofNat i = Text.ofNat j :=
    List.append_cancel_left (List.append_cancel_right h)
  have hread := congrArg Text.toNat? hdigits
  rw [Text.toNat?_ofNat, Text.toNat?_ofNat] at hread
  exact Option.some.inj hread

/-! ### Newlines -/

/-- A path begins with its parent. -/
theorem parent_isPrefix (path : Path) : path.parent.text <+: path.text := by
  obtain ⟨rest, hrest⟩ := reverse_dropWhile_prefix path
  have hjoin :=
    intercalate_isPrefix '/' (path.segmentsFromLast.tail.dropWhile isTrivial).reverse rest
  rw [hrest, List.intercalate_splitOn] at hjoin
  have hprefix := (List.prefix_append_right_inj path.anchor).mpr hjoin
  rwa [(anchor_cases path).1] at hprefix

/-- A file name is a piece of its path. -/
theorem fileName?_isInfix {path : Path} {name : Text} (h : path.fileName? = some name) :
    name <:+: path.text := by
  rw [fileName?_eq, Option.filter_eq_some_iff] at h
  exact infix_of_mem_splitOn (List.mem_of_mem_filter (List.mem_of_getLast? h.1))

/-- A name that is appended brings no newline, and neither does the slash in front of it. -/
theorem newline_notMem_append {directory : Path} {name : Text} (hdirectory : '\n' ∉ directory.text)
    (hname : '\n' ∉ name) : '\n' ∉ (directory.append name).text := by
  rw [Path.append]
  split
  · exact List.not_mem_append hdirectory hname
  · exact List.not_mem_append hdirectory (List.not_mem_cons_of_ne_of_not_mem (by decide) hname)

/-- The path of an output has a newline only if the path of the template has one. -/
theorem newline_notMem_variant {input : Path} (h : '\n' ∉ input.text) (index : Nat) :
    '\n' ∉ (input.variant index).text := by
  -- The name is made of the stem, the mark, the digits of the index and the extension.
  have hpieces :
      '\n' ∉ input.stem ++ input.extension?.elim [] fun extension => '.' :: extension := by
    cases hname : input.fileName? with
    | some name =>
      rw [stem_append_extension hname]
      exact fun hmem => h ((fileName?_isInfix hname).subset hmem)
    | none =>
      rw [Path.stem, Path.extension?, hname]
      exact List.not_mem_nil
  rw [List.mem_append, not_or] at hpieces
  have hmark : '\n' ∉ "_replaced_".toList := by decide
  have hdigits : '\n' ∉ Text.ofNat index := fun hmem =>
    absurd (Text.isDigit_of_mem_ofNat hmem) (by decide)
  have hname : '\n' ∉ variantName input index :=
    List.not_mem_append (List.not_mem_append (List.not_mem_append hpieces.1 hmark) hdigits)
      hpieces.2
  rw [Path.variant, Path.withFileName, ← variantName]
  refine newline_notMem_append ?_ hname
  split
  · exact fun hmem => h ((parent_isPrefix input).subset hmem)
  · exact h

end AsmVariants.Proofs
