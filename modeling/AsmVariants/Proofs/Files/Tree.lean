import AsmVariants.Proofs.Except
import AsmVariants.Proofs.Files.Path
import AsmVariants.Proofs.List
import Mathlib.Data.List.DropRight

/-!
# `AsmVariants.Proofs.Files.Tree`: reading and writing at a location

A path is followed through the directories of a tree to a location, `FileTree.place`, and what
happens to a file happens there:

* `read_eq_ok_iff`: what is read is the file at the location.
* `write_eq_ok_iff`: what is written is put at the location, unless a directory is there.
* `read_of_write` and `node?_of_write`: what is written is read back, and what stands at any other
  location is kept.

A write never changes which locations are directories (`SameDirectories`). So the locations that
paths lead to stay the same when files are written (`SameDirectories.place`), and a file that
already holds what is written to it leaves the whole tree as it is (`write_of_read`).

A location is found in two ways. The directories of a path are followed with `.` and `..` in them,
while its last segment must be a name. `EndsInName` says that a path is of this form, and
`place_eq` and `read_eq` are about such paths. Neither reading nor writing succeeds at any other
(`endsInName_of_read`, `endsInName_of_place`).
-/

set_option autoImplicit false

namespace AsmVariants.Proofs

open FileTree (isName longestName)

/-! ### Nodes -/

/-- What is put among the entries is found at its location, and at all others what was there before.
-/
theorem lookup_putEntry (location other : Location) (node : FileNode)
    (entries : List (Location × FileNode)) :
    (FileTree.putEntry location node entries).lookup other =
      if other = location then some node else entries.lookup other := by
  induction entries with
  | nil => exact lookup_cons_eq_ite location other node []
  | cons entry entries ih =>
    obtain ⟨here, found⟩ := entry
    rw [FileTree.putEntry, lookup_cons_eq_ite here]
    split
    · next hhere =>
      subst hhere
      rw [lookup_cons_eq_ite]
      split <;> rfl
    · next hhere =>
      rw [lookup_cons_eq_ite, ih]
      by_cases h : other = here
      · -- The entry is found here as before, since it is not the one that was put.
        rw [if_pos h, if_pos h, if_neg fun hother => hhere (h.symm.trans hother)]
      · rw [if_neg h, if_neg h]

/-- What is put at a location stands there, and all else is kept. -/
theorem node?_put (tree : FileTree) {location : Location} (h : location ≠ []) (node : FileNode)
    (other : Location) :
    (tree.put location node).node? other =
      if other = location then some node else tree.node? other := by
  rw [FileTree.node?, FileTree.node?, FileTree.put, lookup_putEntry]
  by_cases hother : other = []
  · subst hother
    rw [if_pos rfl, if_neg h.symm, if_pos rfl]
  · rw [if_neg hother, if_neg hother]

/-- Putting what is there already changes nothing. -/
theorem put_of_node? {tree : FileTree} {location : Location} {node : FileNode}
    (h : location ≠ []) (hnode : tree.node? location = some node) :
    tree.put location node = tree := by
  rw [FileTree.node?, if_neg h] at hnode
  obtain ⟨entries⟩ := tree
  rw [FileTree.put, FileTree.mk.injEq]
  -- The entry at the location is replaced by itself, and all entries in front of it stay.
  induction entries with
  | nil => exact nomatch hnode
  | cons entry entries ih =>
    obtain ⟨here, found⟩ := entry
    rw [lookup_cons_eq_ite] at hnode
    rw [FileTree.putEntry]
    by_cases hhere : here = location
    · rw [if_pos hhere.symm] at hnode
      rw [if_pos hhere, Option.some.inj hnode, hhere]
    · rw [if_neg (Ne.symm hhere)] at hnode
      rw [if_neg hhere, ih hnode]

/-! ### Following a path

A path is followed directory by directory, and a segment that leads nowhere is passed over. The last
segment is not followed: it names what is to be read or written. -/

/-- A directory is entered if its name is not too long and it is there. -/
theorem enter_eq_ok_iff {tree : FileTree} {here there : Location} {name : Text} :
    tree.enter here name = .ok there ↔ Text.utf8Size name ≤ longestName ∧
      tree.node? (here ++ [name]) = some .directory ∧ there = here ++ [name] := by
  rw [FileTree.enter]
  split
  · next hlong => simp [Nat.not_le.mpr hlong]
  · next hshort =>
    rw [and_iff_right (Nat.not_lt.mp hshort)]
    cases hnode : tree.node? (here ++ [name]) with
    | none => simp
    | some node =>
      cases node with
      | file bytes => simp
      | directory => simp [eq_comm]

/-- Segments that lead nowhere make no difference. -/
theorem follow_filter (tree : FileTree) (here : Location) (segments : List Text) :
    tree.follow here (segments.filter (!Path.isTrivial ·)) = tree.follow here segments := by
  induction segments generalizing here with
  | nil => rfl
  | cons segment segments ih =>
    rw [FileTree.follow]
    by_cases htrivial : Path.isTrivial segment
    · rw [List.filter_cons_of_neg (by simp [htrivial]), if_pos htrivial, ih]
    · rw [List.filter_cons_of_pos (by simp [htrivial]), FileTree.follow]
      simp only [ih]

/-- The segments of a path up to the last, and the last, which is a name. -/
def EndsInName (path : Path) (front : List Text) (last : Text) : Prop :=
  path.text.splitOn '/' = front ++ [last] ∧ isName last

/-- The segments of a path are what stands between its slashes, if the path can be used at all. -/
theorem segments_eq_splitOn {path : Path} {segments : List Text}
    (h : FileTree.segments path = .ok segments) : segments = path.text.splitOn '/' := by
  rw [FileTree.segments] at h
  split at h
  · exact nomatch h
  · split at h
    · exact nomatch h
    · exact (Except.ok.inj h).symm

/-- A path that ends in a name leads to that name in the directory before it. -/
theorem place_eq {path : Path} {front : List Text} {last : Text} (tree : FileTree)
    (h : EndsInName path front last) :
    tree.place path = FileTree.segments path >>= fun _ => tree.follow [] front >>= fun directory =>
      if longestName < Text.utf8Size last then .error .nameTooLong
      else .ok (directory ++ [last]) := by
  obtain ⟨hsplit, hname⟩ := h
  have hlast : last ≠ [] := by
    rintro rfl
    exact absurd hname (by decide)
  -- The last segment is a name, so no empty segment is taken off behind it.
  have hnamed : ((front ++ [last]).reverse.dropWhile (· == [])).reverse = front ++ [last] := by
    rw [List.reverse_concat, List.dropWhile_cons_of_neg (by simpa using hlast)]
    simp
  have hfile : (!isName last || decide ((front ++ [last]).length < (front ++ [last]).length)) =
      false := by simp [hname]
  rw [FileTree.place]
  cases hsegments : FileTree.segments path with
  | error cause => rfl
  | ok segments =>
    obtain rfl := (segments_eq_splitOn hsegments).trans hsplit
    show (tree.follow [] (((front ++ [last]).reverse.dropWhile (· == [])).reverse).dropLast >>=
      fun directory => _) = _
    rw [hnamed, List.dropLast_concat, List.getLastD_concat, hfile]
    refine bind_congr fun directory => ?_
    rw [if_neg Bool.false_ne_true]
    split <;> rfl

/-- A path whose last segment is a name ends in that name. -/
theorem endsInName_of_getLastD {path : Path} (h : isName ((path.text.splitOn '/').getLastD [])) :
    ∃ front last, EndsInName path front last := by
  have hne := List.splitOn_ne_nil '/' path.text
  refine ⟨_, _, (List.dropLast_concat_getLast hne).symm, ?_⟩
  rwa [List.getLastD_eq_getLast?, List.getLast?_eq_some_getLast hne] at h

/-- Only a path that ends in a name leads to a location. -/
theorem endsInName_of_place {tree : FileTree} {path : Path} {location : Location}
    (h : tree.place path = .ok location) : ∃ front last, EndsInName path front last := by
  obtain ⟨segments, hsegments, h⟩ := bind_eq_ok_iff.mp h
  obtain ⟨directory, -, h⟩ := bind_eq_ok_iff.mp h
  obtain rfl := segments_eq_splitOn hsegments
  dsimp only at h
  split at h
  · exact nomatch h
  · next hfile =>
    rw [Bool.or_eq_true, not_or, decide_eq_true_iff, Nat.not_lt] at hfile
    -- No empty segment was left out at the end, so the last name is the last segment.
    have hnamed : ((path.text.splitOn '/').reverse.dropWhile (· == [])).reverse =
        path.text.splitOn '/' :=
      (List.rdropWhile_prefix (· == []) (path.text.splitOn '/')).eq_of_length_le hfile.2
    rw [hnamed] at hfile
    exact endsInName_of_getLastD (by simpa using hfile.1)

/-- A path that ends in a name leads to a location if the path can be used, the name is not too
long, and the directories before it are there. -/
theorem place_eq_ok_iff {tree : FileTree} {path : Path} {front : List Text} {last : Text}
    {location : Location} (h : EndsInName path front last) :
    tree.place path = .ok location ↔ (FileTree.segments path).isOk ∧
      Text.utf8Size last ≤ longestName ∧
      ∃ directory, tree.follow [] front = .ok directory ∧ location = directory ++ [last] := by
  rw [place_eq tree h]
  cases FileTree.segments path with
  | error cause => simp [bind, Except.bind, Except.isOk, Except.toBool]
  | ok segments =>
    show (tree.follow [] front >>= fun directory => _) = _ ↔ _
    rw [bind_eq_ok_iff]
    constructor
    · rintro ⟨directory, hdirectory, h⟩
      split at h
      · exact nomatch h
      · next hshort =>
        exact ⟨rfl, Nat.not_lt.mp hshort, directory, hdirectory, (Except.ok.inj h).symm⟩
    · rintro ⟨-, hshort, directory, hdirectory, rfl⟩
      exact ⟨directory, hdirectory, if_neg (Nat.not_lt.mpr hshort)⟩

/-- A location is a name in a directory. -/
theorem place_eq_ok_cases {tree : FileTree} {path : Path} {location : Location}
    (h : tree.place path = .ok location) :
    ∃ front last directory, EndsInName path front last ∧
      tree.follow [] front = .ok directory ∧ location = directory ++ [last] := by
  obtain ⟨front, last, hpath⟩ := endsInName_of_place h
  obtain ⟨-, -, directory, hfollow, hlocation⟩ := (place_eq_ok_iff hpath).mp h
  exact ⟨front, last, directory, hpath, hfollow, hlocation⟩

/-- No path leads to the root itself, which is no place for a file. -/
theorem place_ne_nil {tree : FileTree} {path : Path} {location : Location}
    (h : tree.place path = .ok location) : location ≠ [] := by
  obtain ⟨front, last, directory, -, -, rfl⟩ := place_eq_ok_cases h
  simp

/-! ### Reading and writing

Both find the location of the path first, and fail in the same way if there is none. They differ in
what they do there. -/

/-- What is found at a location by reading it. -/
def bytesAt (tree : FileTree) (location : Location) : Except FileError ByteArray :=
  match tree.node? location with
  | some (.file bytes) => .ok bytes
  | some .directory => .error .isADirectory
  | none => .error .notFound

/-- What is read at a location is the file there. -/
theorem bytesAt_eq_ok_iff {tree : FileTree} {location : Location} {bytes : ByteArray} :
    bytesAt tree location = .ok bytes ↔ tree.node? location = some (.file bytes) := by
  rw [bytesAt]
  split
  · next found hnode => simp [hnode]
  · next hnode => simp [hnode]
  · next hnode => simp [hnode]

/-- A path that ends in a name is read at the place that it leads to. -/
theorem read_eq {path : Path} {front : List Text} {last : Text} (tree : FileTree)
    (h : EndsInName path front last) : tree.read path = tree.place path >>= bytesAt tree := by
  rw [place_eq tree h, FileTree.read]
  cases hsegments : FileTree.segments path with
  | error cause => rfl
  | ok segments =>
    obtain rfl := (segments_eq_splitOn hsegments).trans h.1
    show (if isName ((front ++ [last]).getLastD []) then _ else _) =
      (tree.follow [] front >>= fun directory => _) >>= bytesAt tree
    rw [List.getLastD_concat, if_pos h.2, List.dropLast_concat, bind_assoc]
    refine bind_congr fun directory => ?_
    -- A name that is too long is refused by both, and any other is looked up at the same location.
    by_cases hlong : longestName < Text.utf8Size last
    · simp only [if_pos hlong]
      split <;> rfl
    · simp only [if_neg hlong]
      show _ = bytesAt tree (directory ++ [last])
      rw [bytesAt]
      cases tree.node? (directory ++ [last]) with
      | none => rfl
      | some node => cases node <;> rfl

/-- Only a path that ends in a name can be read. -/
theorem endsInName_of_read {tree : FileTree} {path : Path} {bytes : ByteArray}
    (h : tree.read path = .ok bytes) : ∃ front last, EndsInName path front last := by
  obtain ⟨segments, hsegments, h⟩ := bind_eq_ok_iff.mp h
  obtain rfl := segments_eq_splitOn hsegments
  dsimp only at h
  split at h
  · next hname => exact endsInName_of_getLastD hname
  · obtain ⟨-, -, h⟩ := bind_eq_ok_iff.mp h
    exact nomatch h

/-- What is read is the file at the place of the path. -/
theorem read_eq_ok_iff {tree : FileTree} {path : Path} {bytes : ByteArray} :
    tree.read path = .ok bytes ↔
      ∃ location, tree.place path = .ok location ∧ tree.node? location = some (.file bytes) := by
  -- Either side makes sure that the path ends in a name.
  have hread : ∀ {front last}, EndsInName path front last →
      (tree.read path = .ok bytes ↔
        ∃ location, tree.place path = .ok location ∧ tree.node? location = some (.file bytes)) := by
    intro front last hpath
    rw [read_eq tree hpath, bind_eq_ok_iff]
    simp only [bytesAt_eq_ok_iff]
  constructor
  · intro h
    obtain ⟨front, last, hpath⟩ := endsInName_of_read h
    exact (hread hpath).mp h
  · rintro ⟨location, hplace, hnode⟩
    obtain ⟨front, last, hpath⟩ := endsInName_of_place hplace
    exact (hread hpath).mpr ⟨location, hplace, hnode⟩

/-- A file can be written wherever its path leads, unless a directory is there. -/
theorem target_eq_ok_iff {tree : FileTree} {path : Path} {location : Location} :
    tree.target path = .ok location ↔
      tree.place path = .ok location ∧ tree.node? location ≠ some .directory := by
  rw [FileTree.target, bind_eq_ok_iff]
  constructor
  · rintro ⟨place, hplace, h⟩
    split at h
    · exact nomatch h
    · next hnode =>
      obtain rfl : place = location := Except.ok.inj h
      exact ⟨hplace, hnode⟩
  · rintro ⟨hplace, hnode⟩
    refine ⟨location, hplace, ?_⟩
    split
    · next hdirectory => exact absurd hdirectory hnode
    · rfl

/-- What is written is put at the location, and nothing else happens to the tree. -/
theorem write_eq_ok_iff {tree next : FileTree} {path : Path} {bytes : ByteArray} :
    tree.write path bytes = .ok next ↔
      ∃ location, tree.target path = .ok location ∧ next = tree.put location (.file bytes) := by
  rw [FileTree.write, bind_eq_ok_iff]
  refine exists_congr fun location => and_congr_right fun _ => ?_
  exact ⟨fun h => (Except.ok.inj h).symm, fun h => congrArg Except.ok h.symm⟩

/-- Whether a file can be written, and why not, does not depend on what is written. -/
theorem write_eq_error_iff {tree : FileTree} {path : Path} {bytes : ByteArray}
    {cause : FileError} :
    tree.write path bytes = .error cause ↔ tree.target path = .error cause := by
  rw [FileTree.write]
  cases tree.target path with
  | error other => simp [bind, Except.bind]
  | ok location => simp [bind, Except.bind, pure, Except.pure]

/-! ### Directories stay as they are

A file is put where no directory is, so no directory comes or goes. Every path is then followed to
the same location as before. -/

/-- The two trees have their directories at the same locations. -/
def SameDirectories (tree tree' : FileTree) : Prop :=
  ∀ location, tree.node? location = some .directory ↔ tree'.node? location = some .directory

/-- It makes no difference which of the trees comes first. -/
theorem SameDirectories.symm {tree tree' : FileTree} (h : SameDirectories tree tree') :
    SameDirectories tree' tree := fun location => (h location).symm

/-- What one write after another keeps is kept by all of them. -/
theorem SameDirectories.trans {tree tree' tree'' : FileTree} (h : SameDirectories tree tree')
    (h' : SameDirectories tree' tree'') : SameDirectories tree tree'' := fun location =>
  (h location).trans (h' location)

/-- Directories that can be followed in one of the trees can be followed in the other. -/
theorem SameDirectories.follow {tree tree' : FileTree} (h : SameDirectories tree tree')
    {here there : Location} {segments : List Text}
    (hfollow : tree.follow here segments = .ok there) : tree'.follow here segments = .ok there := by
  induction segments generalizing here with
  | nil => exact hfollow
  | cons segment segments ih =>
    -- Only entering a directory looks at the tree, and there it asks for a directory.
    rw [FileTree.follow] at hfollow ⊢
    split at hfollow
    · next htrivial =>
      rw [if_pos htrivial]
      exact ih hfollow
    · next htrivial =>
      rw [if_neg htrivial]
      split at hfollow
      · next hdots =>
        rw [if_pos hdots]
        exact ih hfollow
      · next hdots =>
        rw [if_neg hdots]
        cases henter : tree.enter here segment with
        | error cause => simp [henter] at hfollow
        | ok next =>
          rw [henter] at hfollow
          obtain ⟨hshort, hnode, hnext⟩ := enter_eq_ok_iff.mp henter
          have henter' : tree'.enter here segment = .ok next :=
            enter_eq_ok_iff.mpr ⟨hshort, (h _).mp hnode, hnext⟩
          rw [henter']
          exact ih hfollow

/-- A path leads to the same location in both trees. -/
theorem SameDirectories.place {tree tree' : FileTree} (h : SameDirectories tree tree')
    {path : Path} {location : Location} (hplace : tree.place path = .ok location) :
    tree'.place path = .ok location := by
  obtain ⟨front, last, hpath⟩ := endsInName_of_place hplace
  obtain ⟨hsegments, hshort, directory, hfollow, rfl⟩ := (place_eq_ok_iff hpath).mp hplace
  exact (place_eq_ok_iff hpath).mpr ⟨hsegments, hshort, directory, h.follow hfollow, rfl⟩

/-- What can be written in one of the trees can be written in the other, at the same location. -/
theorem SameDirectories.target {tree tree' : FileTree} (h : SameDirectories tree tree')
    {path : Path} {location : Location} (htarget : tree.target path = .ok location) :
    tree'.target path = .ok location := by
  obtain ⟨hplace, hnode⟩ := target_eq_ok_iff.mp htarget
  exact target_eq_ok_iff.mpr ⟨h.place hplace, mt (h location).mpr hnode⟩

/-- A file is never written in the place of a directory, and a directory is never made by it. -/
theorem sameDirectories_of_write {tree next : FileTree} {path : Path} {bytes : ByteArray}
    (h : tree.write path bytes = .ok next) : SameDirectories tree next := by
  obtain ⟨location, htarget, rfl⟩ := write_eq_ok_iff.mp h
  obtain ⟨hplace, hnode⟩ := target_eq_ok_iff.mp htarget
  intro other
  rw [node?_put tree (place_ne_nil hplace)]
  split
  · next hother => simp [hother, hnode]
  · rfl

section

variable {tree next : FileTree} {path : Path} {bytes : ByteArray}
  (h : tree.write path bytes = .ok next)

include h

/-- What is written is read back. -/
theorem read_of_write : next.read path = .ok bytes := by
  have hsame := sameDirectories_of_write h
  obtain ⟨location, htarget, rfl⟩ := write_eq_ok_iff.mp h
  obtain ⟨hplace, -⟩ := target_eq_ok_iff.mp htarget
  refine read_eq_ok_iff.mpr ⟨location, hsame.place hplace, ?_⟩
  rw [node?_put tree (place_ne_nil hplace), if_pos rfl]

/-- What is at another place is kept. -/
theorem node?_of_write {location : Location} (hapart : tree.place path ≠ .ok location) :
    next.node? location = tree.node? location := by
  obtain ⟨here, htarget, rfl⟩ := write_eq_ok_iff.mp h
  obtain ⟨hplace, -⟩ := target_eq_ok_iff.mp htarget
  rw [node?_put tree (place_ne_nil hplace), if_neg]
  rintro rfl
  exact hapart hplace

end

/-- Writing what a file holds already changes nothing. -/
theorem write_of_read {tree : FileTree} {path : Path} {bytes : ByteArray}
    (h : tree.read path = .ok bytes) : tree.write path bytes = .ok tree := by
  obtain ⟨location, hplace, hnode⟩ := read_eq_ok_iff.mp h
  have htarget : tree.target path = .ok location :=
    target_eq_ok_iff.mpr ⟨hplace, by simp [hnode]⟩
  exact write_eq_ok_iff.mpr ⟨location, htarget, (put_of_node? (place_ne_nil hplace) hnode).symm⟩

end AsmVariants.Proofs
