import AsmVariants.Placeholder.Occurrence
import AsmVariants.Template

/-!
# `AsmVariants.Variant`: copies of a template with values filled in

A variant holds the lines of a template, some of them rewritten, and the choices that were made
to get there. A line with a semicolon is a comment line and stays as it is; on every other line
a chosen value takes the place of its placeholder. `note` and `setLine` are the two steps by which
a copy comes to its choice and its lines.
-/

set_option autoImplicit false

namespace AsmVariants

/-- Whether a line is an instruction, that is, has no comment. -/
def isInstruction (line : Text) : Bool := !line.contains ';'

/-- Whether the placeholder is to be filled in on a line. -/
def Placeholder.isSite (p : Placeholder) (line : Text) : Bool :=
  isInstruction line && p.occursIn line

/-- A value picked for a placeholder from the list of its candidates. -/
structure Choice where
  placeholder : Placeholder
  /-- The position of the value among the candidates, from zero. -/
  index : Nat
  value : Text
  deriving DecidableEq

/-- A copy of a template in which some placeholders are filled in. -/
structure Variant where
  /-- The lines, each with its newline. -/
  lines : List Text
  /-- The choices made so far, in the order in which they were made. -/
  choices : List Choice
  deriving DecidableEq

namespace Variant

/-- The template itself, with no choice made. -/
def ofTemplate (template : Template) : Variant := ⟨template.lines, []⟩

/-- The text of the variant. -/
def contents (variant : Variant) : Text := variant.lines.flatten

/-- The variant with one more choice noted. Its lines stay as they are. -/
def note (variant : Variant) (choice : Choice) : Variant :=
  { variant with choices := variant.choices ++ [choice] }

/-- The variant with another line at an index. -/
def setLine (variant : Variant) (index : Nat) (line : Text) : Variant :=
  { variant with lines := variant.lines.set index line }

end Variant

end AsmVariants
