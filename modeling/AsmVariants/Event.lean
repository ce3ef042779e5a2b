import AsmVariants.Files.Path
import AsmVariants.Placeholder.Basic
import AsmVariants.Text.Quoted

/-!
# `AsmVariants.Event`: what is told while the work goes on

An event is a step that was taken and is worth telling. Events are values, listed in the order in
which the steps were taken; `level` says how much each of them matters and `message` words it.
-/

set_option autoImplicit false

namespace AsmVariants

/-- How much an event matters. -/
inductive Level where
  /-- Of interest when the work itself is watched. -/
  | debug
  /-- Of interest to everyone. -/
  | info
  /-- Perhaps not what was meant. -/
  | warn
  deriving DecidableEq

/-- The name of the level. -/
def Level.name : Level → Text
  | debug => "DEBUG".toList
  | info => "INFO".toList
  | warn => "WARN".toList

/-- A step that was taken. -/
inductive Event where
  /-- A template was read; it has so many lines. -/
  | loaded (path : Path) (lines : Nat)
  /-- These placeholders stand in the template. -/
  | found (path : Path) (placeholders : List Placeholder)
  /-- The first site of a placeholder, on a line counted from one, has these candidates. -/
  | resolved (p : Placeholder) (line : Nat) (candidates : List Text)
  | skipped (p : Placeholder)
  /-- A pass ended with so many variants. -/
  | multiplied (p : Placeholder) (variants : Nat)
  | expanded (placeholders variants : Nat)
  | wrote (path : Path)
  | configured (path : Path)
  /-- So many variants were written, or only named. -/
  | finished (variants : Nat) (written : Bool)
  deriving DecidableEq

namespace Event

/-- How much the event matters. -/
def level : Event → Level
  | loaded .. | resolved .. | multiplied .. => .debug
  | found .. | expanded .. | wrote .. | configured .. | finished .. => .info
  | skipped .. => .warn

/-- The wording of the event. -/
def message : Event → Text
  | loaded path lines =>
    "Loaded template ".toList ++ path.text ++ " (".toList ++ Text.ofNat lines ++ " lines)".toList
  | found path placeholders =>
    "Found ".toList ++ Text.ofNat placeholders.length ++ " placeholder(s) in ".toList ++
      path.text ++ ": ".toList ++ Text.quoteList (placeholders.map Placeholder.token)
  | resolved p line candidates =>
    p.token ++ " at line ".toList ++ Text.ofNat line ++ ": ".toList ++
      Text.ofNat candidates.length ++ " candidate(s) ".toList ++ Text.quoteList candidates
  | skipped p => p.token ++ " has no substitution site, skipping".toList
  | multiplied p variants =>
    p.token ++ " expanded to ".toList ++ Text.ofNat variants ++ " variant(s)".toList
  | expanded placeholders variants =>
    "Expanded ".toList ++ Text.ofNat placeholders ++ " placeholder(s) into ".toList ++
      Text.ofNat variants ++ " variant(s)".toList
  | wrote path => "Wrote ".toList ++ path.text
  | configured path =>
    "Loading configuration file: ".toList ++ Text.quote path.text
  | finished variants true => "Wrote ".toList ++ Text.ofNat variants ++ " file(s)".toList
  | finished variants false =>
    "Dry run: ".toList ++ Text.ofNat variants ++ " file(s) not written".toList

end Event

end AsmVariants
