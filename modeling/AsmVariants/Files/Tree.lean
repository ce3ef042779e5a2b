import AsmVariants.Files.Access

/-!
# `AsmVariants.Files.Tree`: a file system as a value

A `FileTree` is a directory with all that is in it, without links. Files and directories are
found by their location, the names on the way down from the top. A path is followed segment by
segment: two dots lead up, and every segment that is passed through has to be a directory.

`StateM FileTree` has file access, so a program over files becomes a function on trees.
-/

set_option autoImplicit false

namespace AsmVariants

/-- What stands at a location. -/
inductive FileNode where
  | file (bytes : ByteArray)
  | directory

/-- The names that lead from the top of a tree to a file or directory. -/
abbrev Location := List Text

/-- The files and directories below one directory. -/
structure FileTree where
  /-- The nodes by location. Of two entries for one location the first counts. -/
  entries : List (Location × FileNode)

namespace FileTree

/-- The tree with nothing in it. -/
def empty : FileTree := ⟨[]⟩

/-- What stands at a location. The top of the tree is a directory. -/
def node? (tree : FileTree) (location : Location) : Option FileNode :=
  if location = [] then some .directory else tree.entries.lookup location

/-- Entries with a node put at a location, in the place of the one that was there. -/
def putEntry (location : Location) (node : FileNode) :
    List (Location × FileNode) → List (Location × FileNode)
  | [] => [(location, node)]
  | entry :: entries =>
    if entry.1 = location then (location, node) :: entries
    else entry :: putEntry location node entries

/-- The tree with a node put at a location. -/
def put (tree : FileTree) (location : Location) (node : FileNode) : FileTree :=
  ⟨putEntry location node tree.entries⟩

/-- The longest file name, in bytes. -/
def longestName : Nat := 255

/-- The longest path, in bytes. -/
def longestPath : Nat := 4095

/-- Goes down one name, which has to be that of a directory. -/
def enter (tree : FileTree) (here : Location) (name : Text) : Except FileError Location :=
  if longestName < Text.utf8Size name then .error .nameTooLong
  else
    match tree.node? (here ++ [name]) with
    | some .directory => .ok (here ++ [name])
    | some (.file _) => .error .notADirectory
    | none => .error .notFound

/-- Follows the segments of a path through directories. -/
def follow (tree : FileTree) : Location → List Text → Except FileError Location
  | here, [] => .ok here
  | here, segment :: segments =>
    if Path.isTrivial segment then tree.follow here segments
    else if segment = ['.', '.'] then tree.follow here.dropLast segments
    else
      match tree.enter here segment with
      | .error cause => .error cause
      | .ok there => tree.follow there segments

/-- Whether a segment names a file, and is not a way to a directory. -/
def isName (segment : Text) : Bool := !Path.isTrivial segment && segment != ['.', '.']

/-- The segments of a path that can be followed at all. -/
def segments (path : Path) : Except FileError (List Text) :=
  if path.text = [] then .error .notFound
  else if longestPath < Text.utf8Size path.text then .error .nameTooLong
  else .ok (path.text.splitOn '/')

/-- The bytes of a file. -/
def read (tree : FileTree) (path : Path) : Except FileError ByteArray := do
  let segments ← segments path
  let last := segments.getLastD []
  if isName last then
    let directory ← tree.follow [] segments.dropLast
    if longestName < Text.utf8Size last then
      throw .nameTooLong
    match tree.node? (directory ++ [last]) with
    | some (.file bytes) => return bytes
    | some .directory => throw .isADirectory
    | none => throw .notFound
  else
    let _ ← tree.follow [] segments
    throw .isADirectory

/-- The location that a path names, whether there is something or not. A path that ends in a
slash or in dots is that of a directory and names nothing new. -/
def place (tree : FileTree) (path : Path) : Except FileError Location := do
  let segments ← segments path
  let named := (segments.reverse.dropWhile (· == [])).reverse
  let last := named.getLastD []
  let directory ← tree.follow [] named.dropLast
  if !isName last || named.length < segments.length then
    throw .isADirectory
  if longestName < Text.utf8Size last then
    throw .nameTooLong
  return directory ++ [last]

/-- The location at which a file can be written. -/
def target (tree : FileTree) (path : Path) : Except FileError Location := do
  let location ← tree.place path
  match tree.node? location with
  | some .directory => throw .isADirectory
  | _ => return location

/-- The tree in which a file holds the given bytes. -/
def write (tree : FileTree) (path : Path) (bytes : ByteArray) : Except FileError FileTree := do
  return tree.put (← tree.target path) (.file bytes)

/-- The tree with one more directory. The path of the directory may end in slashes. -/
def makeDirectory (tree : FileTree) (path : Path) : Except FileError FileTree := do
  let location ← tree.place ⟨(path.text.reverse.dropWhile (· == '/')).reverse⟩
  match tree.node? location with
  | some _ => throw .alreadyExists
  | none => return tree.put location .directory

/-- The tree without a file. -/
def remove (tree : FileTree) (path : Path) : Except FileError FileTree := do
  let location ← tree.target path
  match tree.node? location with
  | none => throw .notFound
  | some _ => return ⟨tree.entries.filter fun entry => entry.1 != location⟩

/-- All files and directories with their paths, in the order of the paths. The path of a
directory ends in a slash, and a file comes with its bytes. -/
def listing (tree : FileTree) : List (Text × Option ByteArray) :=
  (tree.entries.map fun (location, node) =>
    match node with
    | .file bytes => (['/'].intercalate location, some bytes)
    | .directory => (['/'].intercalate location ++ ['/'], none)).mergeSort
      fun a b => (Text.dictionaryOrder a.1 b.1).isLE

/-- Programs over files as functions on trees: a write that fails leaves the tree as it is. -/
instance : FileAccess (StateM FileTree) where
  read path tree := (tree.read path, tree)
  write path bytes tree :=
    match tree.write path bytes with
    | .ok written => (.ok (), written)
    | .error cause => (.error cause, tree)

end FileTree

end AsmVariants
