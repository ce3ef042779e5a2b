import AsmVariants.Decimal.Natural

/-!
# `AsmVariants.Decimal.Binary64`: decimal numbers and binary floating point

Numbers pass between decimal text and `Float` by exact arithmetic on natural numbers, with one
rounding at the end. `roundDiv` is that rounding, to the nearest integer, and of two that are
equally near to the even one.

* `Binary64.ofRatio` is the floating-point number nearest to a quotient.
* `Text.toFloat?` reads digits, maybe with a point and more digits behind it.
* `Text.ofFloat` writes a number with a fixed count of places behind the point.
-/

set_option autoImplicit false

namespace AsmVariants

/-- The integer nearest to a quotient; of two equally near ones, the even one. -/
def roundDiv (num den : Nat) : Nat :=
  let below := num / den
  let rest := num % den
  if 2 * rest < den then below
  else if den < 2 * rest then below + 1
  else below + below % 2

namespace Binary64

/-- The bits of infinity. -/
def infinityBits : Nat := 0x7FF0000000000000

/-- The exponent `k` for which `2 ^ k` times the quotient of two positive numbers has an integer
part of 53 bits. -/
def shiftOf (num den : Nat) : Int :=
  let guess : Int := 52 - ((num.log2 : Int) - (den.log2 : Int))
  if num <<< guess.toNat < (den <<< 52) <<< (-guess).toNat then guess + 1 else guess

/-- The bits of the floating-point number nearest to a quotient. Numbers that are too small for
53 bits keep the bits that are left, and numbers that are too large are infinite. -/
def bitsOfRatio (num den : Nat) : Nat :=
  if num = 0 then 0
  else
    let shift := min (shiftOf num den) 1074
    let significand := roundDiv (num <<< shift.toNat) (den <<< (-shift).toNat)
    min ((1074 - shift).toNat <<< 52 + significand) infinityBits

/-- The floating-point number nearest to a quotient. -/
def ofRatio (num den : Nat) : Float := Float.ofBits (UInt64.ofNat (bitsOfRatio num den))

/-- The fraction bits of a floating-point number, of which there are 52. -/
def fractionBits (bits : Nat) : Nat := bits % (1 <<< 52)

/-- The exponent bits of a floating-point number, of which there are 11. -/
def exponentBits (bits : Nat) : Nat := bits >>> 52 % (1 <<< 11)

/-- The exponent bits of infinity, and of what is no number. -/
def lastExponent : Nat := 0x7FF

/-- Whether a floating-point number has the sign bit. -/
def isNegative (bits : Nat) : Bool := bits >>> 63 % 2 == 1

/-- The numerator of a finite number's size over `2 ^ 1074`. -/
def numerator (bits : Nat) : Nat :=
  if exponentBits bits = 0 then fractionBits bits
  else (1 <<< 52 + fractionBits bits) <<< (exponentBits bits - 1)

end Binary64

namespace Text

/-- The number that a decimal text denotes, rounded to the nearest floating-point number. -/
def toFloat? (t : Text) : Option Float :=
  match t.span (· != '.') with
  | (whole, []) => (toNat? whole).map fun n => Binary64.ofRatio n 1
  | (whole, _ :: fraction) => do
    let _ ← toNat? whole
    let _ ← toNat? fraction
    let n ← toNat? (whole ++ fraction)
    return Binary64.ofRatio n (Nat.pow 10 fraction.length)

/-- A count of units of the last place, with the point set before so many places. -/
def ofUnits (places n : Nat) : Text :=
  let digits := ofNat n
  let padded := List.replicate (places + 1 - digits.length) '0' ++ digits
  let whole := padded.length - places
  padded.take whole ++ ['.'] ++ padded.drop whole

/-- The number with the given bits in decimal, with so many places behind the point. The number
is rounded to the nearest one with these places, and half a unit goes to the even neighbour. -/
def ofBits (places bits : Nat) : Text :=
  let sign := if Binary64.isNegative bits then ['-'] else []
  if Binary64.exponentBits bits = Binary64.lastExponent then
    if Binary64.fractionBits bits = 0 then sign ++ "inf".toList else "NaN".toList
  else sign ++ ofUnits places (roundDiv (Binary64.numerator bits * Nat.pow 10 places) (1 <<< 1074))

/-- A floating-point number in decimal, with so many places behind the point. -/
def ofFloat (places : Nat) (x : Float) : Text := ofBits places x.toBits.toNat

end Text

end AsmVariants
