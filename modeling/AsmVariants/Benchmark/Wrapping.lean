import AsmVariants.Text.Basic

/-!
# `AsmVariants.Benchmark.Wrapping`: joining wrapped lines

A measurement with a long name is printed on two lines: the name, and indented below it the rest,
which begins with `time:`. `unwrap` joins the two. The newline and all white space behind it, be
it the indent or empty lines, become one blank.
-/

set_option autoImplicit false

namespace AsmVariants.Benchmark

/-- The word that a measurement has behind its name. -/
def timeMark : Text := "time:".toList

/-- Whether a newline goes away if this text follows it: it begins with white space, and
behind that stands the mark. -/
def isContinuation (t : Text) : Bool :=
  t.head?.any Text.isBlank && timeMark.isPrefixOf (t.dropWhile Text.isBlank)

/-- The text with its wrapped lines joined, when white space at its start is to be dropped or
is to stay. -/
def unwrapFrom : Bool → Text → Text
  | _, [] => []
  | dropping, c :: cs =>
    if dropping && Text.isBlank c then unwrapFrom true cs
    else if c = '\n' && isContinuation cs then ' ' :: unwrapFrom true cs
    else c :: unwrapFrom false cs

/-- The text with its wrapped lines joined. -/
def unwrap (t : Text) : Text := unwrapFrom false t

end AsmVariants.Benchmark
