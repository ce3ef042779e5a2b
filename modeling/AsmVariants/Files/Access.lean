import AsmVariants.Files.Path

/-!
# `AsmVariants.Files.Access`: reading and writing files

What the library asks of a file system is two operations, and it says so by the class
`FileAccess`: a program that works on files is written for every monad that has them. Failures
are values of type `FileError`.
-/

set_option autoImplicit false

namespace AsmVariants

/-- Why a file cannot be read or written. -/
inductive FileError where
  /-- The file, or a directory on the way to it, does not exist. -/
  | notFound
  /-- A file stands where the path needs a directory. -/
  | notADirectory
  /-- A directory stands where a file is needed. -/
  | isADirectory
  /-- Something stands already where a directory is to be made. -/
  | alreadyExists
  /-- The path, or a name in it, is longer than the file system admits. -/
  | nameTooLong
  /-- The bytes of the file are not text. -/
  | notUtf8
  /-- Any other reason, in the words of the system. -/
  | other (description : Text)
  deriving DecidableEq

/-- The wording of the error. -/
def FileError.message : FileError → Text
  | notFound => "No such file or directory (os error 2)".toList
  | notADirectory => "Not a directory (os error 20)".toList
  | isADirectory => "Is a directory (os error 21)".toList
  | alreadyExists => "File exists (os error 17)".toList
  | nameTooLong => "File name too long (os error 36)".toList
  | notUtf8 => "stream did not contain valid UTF-8".toList
  | other description => description

/-- The monads in which files can be read and written. -/
class FileAccess (m : Type → Type) where
  /-- The bytes of a file. -/
  read : Path → m (Except FileError ByteArray)
  /-- Makes the file hold the given bytes, and nothing else; creates it if need be. -/
  write : Path → ByteArray → m (Except FileError Unit)

section

variable {m : Type → Type} [Monad m] [FileAccess m]

/-- The text of a file. -/
def readText (path : Path) : m (Except FileError Text) := do
  match ← FileAccess.read path with
  | .error cause => return .error cause
  | .ok bytes =>
    match Text.ofUtf8? bytes with
    | none => return .error .notUtf8
    | some text => return .ok text

/-- Makes the file hold the given text. -/
def writeText (path : Path) (text : Text) : m (Except FileError Unit) :=
  FileAccess.write path text.toUtf8

end

end AsmVariants
