import AsmVariants.Text.Basic

/-!
# `AsmVariants.Files.Path`: file names inside paths

A path is kept as it was written. Its last segment names a file, unless it is two dots; empty
segments and single dots at the end do not count. The name splits at its last dot into stem and
extension, and a name whose only dot comes first is all stem.

`withFileName` puts another name in the place of the last segment. Where a path names no file,
the name is appended.
-/

set_option autoImplicit false

namespace AsmVariants

/-- A path, as written. -/
structure Path where
  text : Text
  deriving DecidableEq

namespace Path

/-- The start of the path that stays when segments are removed: a slash, or a dot that stands
for the current directory. -/
def anchor (path : Path) : Text :=
  match path.text with
  | '/' :: _ => ['/']
  | ['.'] => ['.']
  | '.' :: '/' :: _ => ['.']
  | _ => []

/-- Whether a segment leads nowhere. -/
def isTrivial (segment : Text) : Bool := segment == [] || segment == ['.']

/-- The segments behind the anchor, last one first, without trivial ones at the end of the
path. -/
def segmentsFromLast (path : Path) : List Text :=
  ((path.text.drop path.anchor.length).splitOn '/').reverse.dropWhile isTrivial

/-- The last segment, if it names a file. -/
def fileName? (path : Path) : Option Text :=
  path.segmentsFromLast.head?.filter (· != ['.', '.'])

/-- The path without its last segment. -/
def parent (path : Path) : Path :=
  ⟨path.anchor ++ ['/'].intercalate (path.segmentsFromLast.tail.dropWhile isTrivial).reverse⟩

/-- A file name cut at its last dot into stem and extension. -/
def splitName (name : Text) : Text × Option Text :=
  match name.reverse.dropWhile (· != '.') with
  | _ :: beforeDot =>
    if beforeDot = [] then (name, none)
    else (beforeDot.reverse, some (name.reverse.takeWhile (· != '.')).reverse)
  | [] => (name, none)

/-- The file name without its extension; empty if the path names no file. -/
def stem (path : Path) : Text := path.fileName?.elim [] fun name => (splitName name).1

/-- What follows the last dot of the file name. -/
def extension? (path : Path) : Option Text := path.fileName?.bind fun name => (splitName name).2

/-- The path of a name inside a directory. -/
def append (directory : Path) (name : Text) : Path :=
  if directory.text = [] ∨ directory.text.getLast? = some '/' then ⟨directory.text ++ name⟩
  else ⟨directory.text ++ '/' :: name⟩

/-- The path with another file name. -/
def withFileName (path : Path) (name : Text) : Path :=
  (if path.fileName?.isSome then path.parent else path).append name

end Path

end AsmVariants
