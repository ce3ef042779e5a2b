import AsmVariants.Placeholder.Occurrence

/-!
# `AsmVariants.Candidates`: the candidates that a line lists for a placeholder

A line may hold several annotations, separated by semicolons. The one for a placeholder is the
first segment in which the placeholder occurs. In it, the first occurrence that an equals sign
follows introduces the candidates: the rest of the segment, trimmed, cut at its commas. A
candidate may be empty, the list may not.

`above?` looks at one line only, the line directly above a given one.
-/

set_option autoImplicit false

namespace AsmVariants.Candidates

/-- What an equals sign at the start of a text introduces. -/
def valueText? : Text → Option Text
  | [] => none
  | c :: cs => if c = '=' then some cs else none

/-- The candidates written in a list of values. -/
def ofList? (t : Text) : Option (List Text) :=
  let values := Text.trim t
  if values = [] then none else some (values.splitOn ',')

/-- The candidates that a line lists for a placeholder. -/
def onLine? (p : Placeholder) (line : Text) : Option (List Text) := do
  let segment ← (line.splitOn ';').find? p.occursIn
  let values ← (p.textsAfter segment).findSome? valueText?
  ofList? values

/-- The candidates listed directly above a line, given by its index. -/
def above? (p : Placeholder) (lines : List Text) : Nat → Option (List Text)
  | 0 => none
  | above + 1 => lines[above]?.bind (onLine? p)

end AsmVariants.Candidates
