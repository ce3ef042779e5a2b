import AsmVariants.Candidates
import AsmVariants.Variant

/-!
# `AsmVariants.Expansion.Basic`: from a template to all its variants

The placeholders are taken one after another. A pass for a placeholder replaces each variant by
one copy for each candidate, in the order of the candidates:

* The candidates of a variant stand above the first line on which the placeholder is to be
  filled in; that line is the placeholder's *first site*.
* The copies are filled in line by line, from the first site on. What is filled in is read off
  the variant that is copied, not off a copy.
* A variant without a site is kept as it is. A pass in which no variant has a site changes
  nothing.
* All sites of a pass are found before any copy is made, so a site without candidates, or a
  limit that the copies would exceed, stops the expansion at the old set.
-/

set_option autoImplicit false

namespace AsmVariants

/-- Why an expansion stops. -/
inductive ExpansionError where
  /-- Nothing above the first site lists candidates; the line number counts from one. -/
  | unresolved (p : Placeholder) (line : Nat)
  /-- More variants are called for than the limit admits. -/
  | overLimit (limit : UInt64) (requested : Nat)
  deriving DecidableEq

/-- The wording of the error. -/
def ExpansionError.message : ExpansionError → Text
  | unresolved p line =>
    "No annotation for ".toList ++ p.token ++ " above line ".toList ++ Text.ofNat line
  | overLimit limit requested =>
    "Expansion would produce ".toList ++ Text.ofNat requested ++
      " variants, limit is ".toList ++ Text.ofNat limit.toNat

/-- The first line on which a placeholder is to be filled in, with the candidates above it. -/
structure FirstSite where
  index : Nat
  candidates : List Text
  deriving DecidableEq

namespace Variant

/-- The first site of a placeholder, if there is a site. A first site has to have candidates. -/
def firstSite? (variant : Variant) (p : Placeholder) :
    Except ExpansionError (Option FirstSite) :=
  match variant.lines.findIdx? p.isSite with
  | none => .ok none
  | some index =>
    match Candidates.above? p variant.lines index with
    | none => .error (.unresolved p (index + 1))
    | some candidates => .ok (some ⟨index, candidates⟩)

/-- One copy of the variant for each candidate, with the choice noted and no line filled in. -/
def copies (variant : Variant) (p : Placeholder) (candidates : List Text) : List Variant :=
  candidates.zipIdx.map fun (value, index) => variant.note ⟨p, index, value⟩

/-- Fills in one line of the original, given with its index, in all copies: where it is a site,
each copy gets the line with the copy's own candidate in it. -/
def fillCopies (p : Placeholder) (candidates : List Text) (copies : List Variant) :
    Text × Nat → List Variant
  | (line, index) =>
    if p.isSite line then
      copies.zipWith (fun copy value => copy.setLine index (p.replace value line)) candidates
    else copies

/-- What a pass makes of one variant: a copy for each candidate, filled in from the first site
on, or the variant itself where there is no site. -/
def branches (variant : Variant) (p : Placeholder) : Option FirstSite → List Variant
  | none => [variant]
  | some site =>
    (variant.lines.zipIdx.drop site.index).foldl (fillCopies p site.candidates)
      (variant.copies p site.candidates)

end Variant

namespace Expansion

/-- No count of variants is reported beyond this one. -/
def largestCount : Nat := UInt64.size - 1

/-- How many variants come of one variant: one for each candidate, or itself. -/
def branchCount (site : Option FirstSite) : Nat := site.elim 1 (·.candidates.length)

/-- How many variants a pass calls for. -/
def requested (sites : List (Option FirstSite)) : Nat :=
  min (sites.foldr (fun site count => branchCount site + count) 0) largestCount

/-- Fails if the count is above the limit. -/
def checkLimit (limit : Option UInt64) (count : Nat) : Except ExpansionError Unit :=
  match limit with
  | none => .ok ()
  | some most => if most.toNat < count then .error (.overLimit most count) else .ok ()

/-- One pass: every variant is replaced by its branches. -/
def pass (limit : Option UInt64) (p : Placeholder) (variants : List Variant) :
    Except ExpansionError (List Variant) := do
  let sites ← variants.mapM (·.firstSite? p)
  if sites.all Option.isNone then
    return variants
  checkLimit limit (requested sites)
  return (variants.zip sites).flatMap fun (variant, site) => variant.branches p site

/-- The passes for some placeholders, one after another. The first that fails ends them. -/
def passes (limit : Option UInt64) (placeholders : List Placeholder) (variants : List Variant) :
    Except ExpansionError (List Variant) :=
  placeholders.foldlM (fun variants p => pass limit p variants) variants

end Expansion

/-- The variants of a template, when its placeholders are expanded in the given order. The
template counts as a variant, so a limit of zero admits nothing. -/
def expand (limit : Option UInt64) (template : Template) (placeholders : List Placeholder) :
    Except ExpansionError (List Variant) := do
  Expansion.checkLimit limit 1
  Expansion.passes limit placeholders [Variant.ofTemplate template]

end AsmVariants
