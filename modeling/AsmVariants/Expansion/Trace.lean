import AsmVariants.Event
import AsmVariants.Expansion.Basic

/-!
# `AsmVariants.Expansion.Trace`: the events of an expansion

The trace of an expansion is read off its passes and does not take part in it. A pass tells the
first site of each variant up to the variant that stops it, then what came of it: nothing to fill
in, or so many variants. An expansion that comes to its end tells that last.
-/

set_option autoImplicit false

namespace AsmVariants

namespace Expansion

/-- The first sites that a pass finds, up to the one that stops it. -/
def siteEvents (p : Placeholder) :
    List (Except ExpansionError (Option FirstSite)) → List Event
  | [] => []
  | .error _ :: _ => []
  | .ok none :: rest => siteEvents p rest
  | .ok (some site) :: rest => .resolved p (site.index + 1) site.candidates :: siteEvents p rest

/-- What came of a pass. -/
def outcomeEvents (limit : Option UInt64) (p : Placeholder) (variants : List Variant) :
    List Event :=
  match variants.mapM (·.firstSite? p), pass limit p variants with
  | .ok sites, .ok after =>
    if sites.all Option.isNone then [.skipped p] else [.multiplied p after.length]
  | _, _ => []

/-- The events of a pass. -/
def passEvents (limit : Option UInt64) (p : Placeholder) (variants : List Variant) :
    List Event :=
  siteEvents p (variants.map (·.firstSite? p)) ++ outcomeEvents limit p variants

/-- The events of the passes for some placeholders, and of the end if it is reached. -/
def eventsFrom (limit : Option UInt64) (total : Nat) :
    List Placeholder → List Variant → List Event
  | [], variants => [.expanded total variants.length]
  | p :: rest, variants =>
    passEvents limit p variants ++
      match pass limit p variants with
      | .ok after => eventsFrom limit total rest after
      | .error _ => []

end Expansion

/-- The events of an expansion. -/
def expandEvents (limit : Option UInt64) (template : Template)
    (placeholders : List Placeholder) : List Event :=
  match Expansion.checkLimit limit 1 with
  | .ok () =>
    Expansion.eventsFrom limit placeholders.length placeholders [Variant.ofTemplate template]
  | .error _ => []

end AsmVariants
