import AsmVariants.Placeholder.Order
import AsmVariants.Placeholder.Piece

/-!
# `AsmVariants.Template`: templates

A template is the list of its lines, each with its newline. `Template.toText_ofText` says that
cutting a text into lines loses nothing. `Template.placeholders` lists every placeholder that
stands anywhere in the template, comments included, once.
-/

set_option autoImplicit false

namespace AsmVariants

/-- A template: lines of assembly and of comments. -/
structure Template where
  /-- The lines, each with its newline; the last one may lack it. -/
  lines : List Text
  deriving DecidableEq

namespace Template

/-- The template with a given text. -/
def ofText (t : Text) : Template := ⟨t.splitLines⟩

/-- The text of the template. -/
def toText (template : Template) : Text := template.lines.flatten

/-- The template of a text has that text. -/
theorem toText_ofText (t : Text) : (ofText t).toText = t := Text.flatten_splitLines t

/-- The placeholders of the template in the given order, each once. -/
def placeholders (template : Template) (order : PlaceholderOrder) : List Placeholder :=
  order.arrange (template.lines.flatMap Text.tokens).eraseDups

end Template

end AsmVariants
