import AsmVariants.Event
import AsmVariants.Files.Access
import AsmVariants.Variant

/-!
# `AsmVariants.Output`: the files that variants are written to

The variants of a template are written beside it. The name of a variant is the stem of the
template's name, a mark with the number of the variant, and the extension, so variant 3 of
`dir/add.zasm` is `dir/add_replaced_3.zasm`.

Writing goes from the first variant to the last and stops at the first file that cannot be
written; the files before it stay.
-/

set_option autoImplicit false

namespace AsmVariants

/-- The path of the variant with a given number, from zero. -/
def Path.variant (input : Path) (index : Nat) : Path :=
  input.withFileName
    (input.stem ++ "_replaced_".toList ++ Text.ofNat index ++
      input.extension?.elim [] fun extension => '.' :: extension)

/-- The paths of so many variants. -/
def Path.variants (input : Path) (count : Nat) : List Path :=
  (List.range count).map input.variant

/-- A file that could not be written. -/
structure WriteFailure where
  path : Path
  cause : FileError
  deriving DecidableEq

/-- The wording of the failure. -/
def WriteFailure.message (failure : WriteFailure) : Text :=
  "Failed to write ".toList ++ failure.path.text ++ ": ".toList ++ failure.cause.message

section

variable {m : Type → Type} [Monad m] [FileAccess m]

/-- Writes texts to paths, up to the first that fails. The answer has the paths that were
written and the failure, if there was one. -/
def writeAll : List (Path × Text) → m (List Path × Option WriteFailure)
  | [] => return ([], none)
  | (path, text) :: rest => do
    match ← writeText path text with
    | .error cause => return ([], some ⟨path, cause⟩)
    | .ok () =>
      let (written, failure) ← writeAll rest
      return (path :: written, failure)

/-- Writes the variants of a template beside it. -/
def writeVariants (input : Path) (variants : List Variant) :
    m (List Path × Option WriteFailure) :=
  writeAll ((input.variants variants.length).zip (variants.map Variant.contents))

end

end AsmVariants
