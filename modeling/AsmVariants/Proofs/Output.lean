import AsmVariants.Output
import AsmVariants.Proofs.Files.Tree

/-!
# `AsmVariants.Proofs.Output`: writing variants beside their template

`writeAll` is run on trees. It writes all its files, or those in front of the first that cannot be
written (`writeAll_cases`), and `Wrote` says of the files that were written, one after another, what
tree they lead to. Along such a run

* what stands apart from the files is kept (`Wrote.node?_eq`), and
* each file holds its text at the end, if no two of them are in one place (`Wrote.read_eq`).

The variants of a template that can be read are such files. Their places are in the directory of
the template, apart from each other and from the template (`place_variant`), and whether a variant
can be written, and why not, does not depend on the variants that were written before it
(`target_variant_eq`). `Delivered` puts together what a tree is like to which the variants were
written, and `Stopped` what it is like if one of them could not be.
-/

set_option autoImplicit false

namespace AsmVariants.Proofs

open FileTree (longestName)

/-! ### Files that are written one after another

Files that are apart are in different places, and a write changes one place only. So the files of a
run can be looked at one by one, and their order does not matter to what is kept. -/

/-- Writing the files, from the first to the last, makes one tree the other. -/
inductive Wrote : FileTree → List (Path × Text) → FileTree → Prop
  | nil (tree : FileTree) : Wrote tree [] tree
  | cons {tree next after : FileTree} {path : Path} {text : Text} {files : List (Path × Text)}
      (first : tree.write path text.toUtf8 = .ok next) (rest : Wrote next files after) :
      Wrote tree ((path, text) :: files) after

/-- The two paths do not lead to the same location. -/
def Apart (tree : FileTree) (path other : Path) : Prop :=
  ∀ location, tree.place path = .ok location → tree.place other ≠ .ok location

section

variable {tree after : FileTree} {files : List (Path × Text)}

/-- Writing files makes no directory and removes none. -/
theorem Wrote.sameDirectories (h : Wrote tree files after) : SameDirectories tree after := by
  induction h with
  | nil tree => exact fun _ => Iff.rfl
  | cons first _ ih => exact (sameDirectories_of_write first).trans ih

/-- What is apart from all the files is kept. -/
theorem Wrote.node?_eq (h : Wrote tree files after) {location : Location}
    (hapart : ∀ file ∈ files, tree.place file.1 ≠ .ok location) :
    after.node? location = tree.node? location := by
  induction h with
  | nil tree => rfl
  | cons first _ ih =>
    rw [List.forall_mem_cons] at hapart
    have hsame := sameDirectories_of_write first
    rw [ih fun file hfile hplace => hapart.2 file hfile (hsame.symm.place hplace)]
    exact node?_of_write first hapart.1

/-- A file that can be read and is apart from all the files is kept. -/
theorem Wrote.read_eq_of_apart (h : Wrote tree files after) {path : Path} {bytes : ByteArray}
    (hapart : ∀ file ∈ files, Apart tree path file.1) (hread : tree.read path = .ok bytes) :
    after.read path = .ok bytes := by
  obtain ⟨location, hplace, hnode⟩ := read_eq_ok_iff.mp hread
  have hkept := h.node?_eq fun file hfile => hapart file hfile location hplace
  exact read_eq_ok_iff.mpr ⟨location, h.sameDirectories.place hplace, hkept.trans hnode⟩

/-- At the end each file holds its text. -/
theorem Wrote.read_eq (h : Wrote tree files after)
    (hapart : files.Pairwise fun file other => Apart tree file.1 other.1) :
    ∀ file ∈ files, after.read file.1 = .ok file.2.toUtf8 := by
  induction h with
  | nil tree => exact List.forall_mem_nil _
  | @cons tree next after path text files first rest ih =>
    rw [List.pairwise_cons] at hapart
    have hsame := sameDirectories_of_write first
    have hapart' : ∀ {path other : Path}, Apart tree path other → Apart next path other :=
      fun h location hplace hplace' =>
        h location (hsame.symm.place hplace) (hsame.symm.place hplace')
    refine List.forall_mem_cons.mpr ⟨?_, ih (hapart.2.imp hapart')⟩
    -- The first file holds its text at once, and the others are apart from it.
    exact rest.read_eq_of_apart (fun file hfile => hapart' (hapart.1 file hfile))
      (read_of_write first)

/-- Every file that was written could be written to begin with. -/
theorem Wrote.exists_target (h : Wrote tree files after) :
    ∀ file ∈ files, ∃ location, tree.target file.1 = .ok location := by
  induction h with
  | nil tree => exact List.forall_mem_nil _
  | cons first _ ih =>
    obtain ⟨here, htarget, -⟩ := write_eq_ok_iff.mp first
    refine List.forall_mem_cons.mpr ⟨⟨here, htarget⟩, fun file hfile => ?_⟩
    obtain ⟨location, hlocation⟩ := ih file hfile
    exact ⟨location, (sameDirectories_of_write first).symm.target hlocation⟩

/-- Writing what the files hold already changes nothing. -/
theorem wrote_self (h : ∀ file ∈ files, tree.read file.1 = .ok file.2.toUtf8) :
    Wrote tree files tree := by
  induction files with
  | nil => exact .nil tree
  | cons file files ih =>
    rw [List.forall_mem_cons] at h
    exact .cons (write_of_read h.1) (ih h.2)

end

/-! ### Writing until a file cannot be written

`Wrote` says what was written without saying what comes next, so it serves for a run that is
complete and for one that is not. -/

/-- One step after another on a state, as functions of the state. -/
theorem stateM_bind_apply {σ α β : Type} (x : StateM σ α) (f : α → StateM σ β) (state : σ) :
    (x >>= f) state = f (x state).1 (x state).2 := rfl

/-- A result by itself leaves the state as it is. -/
theorem stateM_pure_apply {σ α : Type} (a : α) (state : σ) :
    (pure a : StateM σ α) state = (a, state) := rfl

section

variable {tree next after : FileTree} {path : Path} {text : Text} (files : List (Path × Text))

/-- A file that cannot be written ends the run, and the tree is left as it was. -/
theorem writeAll_cons_of_error {cause : FileError}
    (h : tree.write path text.toUtf8 = .error cause) :
    writeAll (m := StateM FileTree) ((path, text) :: files) tree =
      (([], some ⟨path, cause⟩), tree) := by
  simp only [writeAll, writeText, FileAccess.write, stateM_bind_apply, stateM_pure_apply, h]

/-- A file that is written is the first of those that were, and the run goes on in the tree that it
leaves. -/
theorem writeAll_cons_of_ok (h : tree.write path text.toUtf8 = .ok next) {written : List Path}
    {failure? : Option WriteFailure}
    (hrest : writeAll (m := StateM FileTree) files next = ((written, failure?), after)) :
    writeAll (m := StateM FileTree) ((path, text) :: files) tree =
      ((path :: written, failure?), after) := by
  simp only [writeAll, writeText, FileAccess.write, stateM_bind_apply, stateM_pure_apply, h, hrest]

end

/-- Files that can all be written are written. -/
theorem Wrote.writeAll_eq {tree after : FileTree} {files : List (Path × Text)}
    (h : Wrote tree files after) :
    writeAll (m := StateM FileTree) files tree = ((files.map Prod.fst, none), after) := by
  induction h with
  | nil tree => rfl
  | cons first _ ih => exact writeAll_cons_of_ok _ first ih

/-- All files are written, or those in front of one that cannot be written. -/
theorem writeAll_cases (files : List (Path × Text)) (tree : FileTree) :
    (∃ after, Wrote tree files after) ∨
    ∃ done path text rest after cause, files = done ++ (path, text) :: rest ∧
      Wrote tree done after ∧ after.write path text.toUtf8 = .error cause ∧
      writeAll (m := StateM FileTree) files tree =
        ((done.map Prod.fst, some ⟨path, cause⟩), after) := by
  induction files generalizing tree with
  | nil => exact Or.inl ⟨tree, .nil tree⟩
  | cons file files ih =>
    obtain ⟨path, text⟩ := file
    cases hwrite : tree.write path text.toUtf8 with
    | error cause =>
      exact Or.inr ⟨[], path, text, files, tree, cause, rfl, .nil tree, hwrite,
        writeAll_cons_of_error files hwrite⟩
    | ok next =>
      -- The first file was written, so it joins those that were written behind it.
      rcases ih next with ⟨after, hall⟩ | ⟨done, path', text', rest, after, cause, rfl, hdone, h⟩
      · exact Or.inl ⟨after, .cons hwrite hall⟩
      · exact Or.inr ⟨(path, text) :: done, path', text', rest, after, cause, rfl,
          .cons hwrite hdone, h.1, writeAll_cons_of_ok _ hwrite h.2⟩

/-! ### The places of outputs

The path of an output differs from that of the template in its last name only, so it is followed
through the same directories to the same directory. -/

section

variable {input : Path} {front : List Text} {last : Text} (h : EndsInName input front last)

include h

/-- The last name along a path that ends in a name is that name. -/
theorem names_of_endsInName : names input.text = front.filter (!Path.isTrivial ·) ++ [last] := by
  have hlast : Path.isTrivial last = false := by
    have hname := h.2
    simp only [FileTree.isName, Bool.and_eq_true, Bool.not_eq_true'] at hname
    exact hname.1
  rw [names, h.1, List.filter_append, List.filter_singleton, hlast]
  rfl

/-- A path that ends in a name has it for its file name, as that is not two dots. -/
theorem fileName?_of_endsInName : input.fileName? = some last := by
  have hlast : (last != ['.', '.']) = true := by
    have hname := h.2
    rw [FileTree.isName, Bool.and_eq_true] at hname
    exact hname.2
  rw [fileName?_eq, names_of_endsInName h, List.getLast?_concat, Option.filter_some, if_pos hlast]

/-- An output is placed in the directory of the template, unless its path is too long. -/
theorem place_variant_eq {tree : FileTree} {directory : Location}
    (hfollow : tree.follow [] front = .ok directory) (index : Nat) :
    tree.place (input.variant index) = FileTree.segments (input.variant index) >>= fun _ =>
      if longestName < Text.utf8Size (variantName input index) then .error .nameTooLong
      else .ok (directory ++ [variantName input index]) := by
  obtain ⟨front', hsplit, hfront⟩ := splitOn_variant (fileName?_of_endsInName h) index
  have hvariant : EndsInName (input.variant index) front' (variantName input index) :=
    ⟨hsplit, isName_variantName input index⟩
  have hfollow' : tree.follow [] front' = .ok directory := by
    rw [← follow_filter, hfront, names_of_endsInName h, List.dropLast_concat, follow_filter,
      hfollow]
  rw [place_eq tree hvariant, hfollow']
  rfl

end

section

variable {tree : FileTree} {input : Path} {location : Location}
  (h : tree.place input = .ok location)

include h

/-- All outputs are in the directory of the template. -/
theorem place_variant {index : Nat} {there : Location}
    (hvariant : tree.place (input.variant index) = .ok there) :
    there = location.dropLast ++ [variantName input index] := by
  obtain ⟨front, last, directory, hinput, hfollow, rfl⟩ := place_eq_ok_cases h
  rw [place_variant_eq hinput hfollow, bind_eq_ok_iff] at hvariant
  obtain ⟨segments, -, hvariant⟩ := hvariant
  split at hvariant
  · exact nomatch hvariant
  · rw [List.dropLast_concat]
    exact (Except.ok.inj hvariant).symm

/-- Two outputs are in different places, because their names differ. -/
theorem apart_variant {index index' : Nat} (hne : index ≠ index') :
    Apart tree (input.variant index) (input.variant index') := by
  intro there hplace hplace'
  have hlocations := (place_variant h hplace).symm.trans (place_variant h hplace')
  have hnames : variantName input index = variantName input index' := by simpa using hlocations
  exact hne (variantName_injective input hnames)

/-- No output is in the place of the template, because its name differs from the template's. -/
theorem apart_template (index : Nat) : Apart tree input (input.variant index) := by
  intro there hplace hplace'
  obtain rfl : location = there := Except.ok.inj (h.symm.trans hplace)
  obtain ⟨front, last, directory, hinput, -, rfl⟩ := place_eq_ok_cases h
  have hname : last = variantName input index := by simpa using place_variant h hplace'
  exact variantName_ne_fileName (fileName?_of_endsInName hinput) index hname.symm

/-- Whether an output can be written, and where or why not, depends on the directories only. -/
theorem target_variant_eq {tree' : FileTree} (hsame : SameDirectories tree tree') (index : Nat) :
    tree'.target (input.variant index) = tree.target (input.variant index) := by
  obtain ⟨front, last, directory, hinput, hfollow, rfl⟩ := place_eq_ok_cases h
  -- The same directories are followed to the same place.
  have hplace : tree'.place (input.variant index) = tree.place (input.variant index) := by
    rw [place_variant_eq hinput hfollow, place_variant_eq hinput (hsame.follow hfollow)]
  rw [FileTree.target, FileTree.target, hplace]
  refine bind_congr fun there => ?_
  have hthere := hsame there
  split
  · next hdirectory => rw [hthere.mpr hdirectory]
  · next hnode =>
    split
    · next hdirectory => exact absurd (hthere.mp hdirectory) hnode
    · rfl

end

/-! ### Trees with outputs

What is said of an output is said by its number. The files of a run are in the order of the numbers,
so those that were written before a failure are the ones with a smaller number. -/

/-- The files for variants of a template. -/
def outputFiles (input : Path) (variants : List Variant) : List (Path × Text) :=
  variants.mapIdx fun index variant => (input.variant index, variant.contents)

/-- In front of one of the files are those for the variants before its own. -/
theorem outputFiles_eq_append_cons {input : Path} {variants : List Variant}
    {done rest : List (Path × Text)} {file : Path × Text}
    (h : outputFiles input variants = done ++ file :: rest) :
    done.length < variants.length ∧ file.1 = input.variant done.length ∧
      done = outputFiles input (variants.take done.length) := by
  -- There is one file for each variant, in the same order.
  have hlength : variants.length = done.length + (rest.length + 1) := by
    simpa [outputFiles] using congrArg List.length h
  refine ⟨by omega, ?_, ?_⟩
  · have hfile : (outputFiles input variants)[done.length]? = some file := by simp [h]
    rw [outputFiles, List.getElem?_mapIdx, Option.map_eq_some_iff] at hfile
    obtain ⟨variant, -, rfl⟩ := hfile
    rfl
  · have htake : done = (outputFiles input variants).take done.length := by simp [h]
    rw [htake]
    apply List.ext_getElem
    · simp [outputFiles, hlength]
    · intro index hindex hindex'
      simp [outputFiles]

/-- The second tree is the first with variants of a template written beside it. -/
structure Delivered (tree : FileTree) (input : Path) (variants : List Variant)
    (after : FileTree) : Prop where
  /-- Each output holds the contents of its variant. -/
  read_output : ∀ (index : Nat) (h : index < variants.length),
    after.read (input.variant index) = .ok variants[index].contents.toUtf8
  /-- The template is kept. -/
  read_template : after.read input = tree.read input
  /-- Whatever is at the place of no output is kept. -/
  node?_eq : ∀ location,
    (∀ index < variants.length, tree.place (input.variant index) ≠ .ok location) →
    after.node? location = tree.node? location

/-- If all files of the variants were written, then each output holds its contents, and all else is
kept. The outputs are apart from each other, and the template is apart from all of them. -/
theorem delivered_of_wrote {tree after : FileTree} {input : Path} {variants : List Variant}
    {bytes : ByteArray} (hread : tree.read input = .ok bytes)
    (h : Wrote tree (outputFiles input variants) after) : Delivered tree input variants after := by
  obtain ⟨location, hplace, -⟩ := read_eq_ok_iff.mp hread
  have hfiles : ∀ file ∈ outputFiles input variants,
      ∃ index < variants.length, file.1 = input.variant index := by
    intro file hfile
    obtain ⟨index, hindex, rfl⟩ := List.mem_mapIdx.mp hfile
    exact ⟨index, hindex, rfl⟩
  refine ⟨fun index hindex => ?_, ?_, fun there hthere => ?_⟩
  · -- Two outputs have different numbers, so none is written over by a later one.
    have hapart : (outputFiles input variants).Pairwise fun file other =>
        Apart tree file.1 other.1 := by
      rw [List.pairwise_iff_getElem]
      intro i j hi hj hlt
      simp only [outputFiles, List.getElem_mapIdx]
      exact apart_variant hplace hlt.ne
    exact h.read_eq hapart (input.variant index, variants[index].contents)
      (List.mem_mapIdx.mpr ⟨index, hindex, rfl⟩)
  · -- The template has a name that no output has.
    rw [hread]
    refine h.read_eq_of_apart (fun file hfile => ?_) hread
    obtain ⟨index, -, hfile⟩ := hfiles file hfile
    rw [hfile]
    exact apart_template hplace index
  · refine h.node?_eq fun file hfile => ?_
    obtain ⟨index, hindex, hfile⟩ := hfiles file hfile
    rw [hfile]
    exact hthere index hindex

/-- The variants in front of one of them are written, and the one at the index cannot be. -/
structure Stopped (tree : FileTree) (input : Path) (variants : List Variant) (index : Nat)
    (cause : FileError) (after : FileTree) : Prop where
  index_lt : index < variants.length
  /-- The output could not be written to begin with, -/
  target_eq : tree.target (input.variant index) = .error cause
  /-- and it is the first of which this is so. -/
  exists_target : ∀ earlier < index, ∃ location, tree.target (input.variant earlier) = .ok location
  delivered : Delivered tree input (variants.take index) after
  /-- Whatever is at the place of the output or of a later one is kept. -/
  node?_eq : ∀ later ≥ index, ∀ location, tree.place (input.variant later) = .ok location →
    after.node? location = tree.node? location

/-- If the files in front of one were written and that one cannot be, then the reason was there to
begin with, as nothing that was written before has to do with it. -/
theorem stopped_of_wrote {tree after : FileTree} {input : Path} {variants : List Variant}
    {done rest : List (Path × Text)} {file : Path × Text} {cause : FileError} {bytes : ByteArray}
    (hread : tree.read input = .ok bytes)
    (hfiles : outputFiles input variants = done ++ file :: rest) (hdone : Wrote tree done after)
    (hfailed : after.write file.1 file.2.toUtf8 = .error cause) :
    file.1 = input.variant done.length ∧
      Stopped tree input variants done.length cause after := by
  obtain ⟨location, hplace, -⟩ := read_eq_ok_iff.mp hread
  obtain ⟨hlength, hfile, htake⟩ := outputFiles_eq_append_cons hfiles
  rw [htake] at hdone
  have hearlier : ∀ earlier < done.length, earlier < (variants.take done.length).length := by
    intro earlier h
    rw [List.length_take]
    omega
  -- The files that were written are all those of the variants in front.
  have delivered : Delivered tree input (variants.take done.length) after :=
    delivered_of_wrote hread hdone
  refine ⟨hfile, hlength, ?_, fun earlier h => ?_, delivered, fun later hlater there hthere => ?_⟩
  · -- Writing them made no directory, so the reason was the same at the start.
    rw [← target_variant_eq hplace hdone.sameDirectories, ← hfile]
    exact write_eq_error_iff.mp hfailed
  · exact hdone.exists_target _ (List.mem_mapIdx.mpr ⟨earlier, hearlier earlier h, rfl⟩)
  · refine delivered.node?_eq there fun earlier h hplace' => ?_
    have hne : earlier ≠ later := by
      rw [List.length_take] at h
      omega
    exact apart_variant hplace hne there hplace' hthere

end AsmVariants.Proofs
