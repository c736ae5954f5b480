import Autogen.Number.Double

/-!
# Arithmetic of doubles

Sums and products of doubles. Every finite double is an integer multiple of the smallest positive
one, so the exact result is computed in integers and rounded once.

## Main definitions

* `Double.units` — the magnitude of a finite double as a multiple of the smallest positive one.
* `Double.ofNat?` — the double nearest to a natural number.
* `Double.add`, `Double.mul`, `Double.negate` — the arithmetic.
-/

namespace Autogen.Double

/-- The magnitude of a finite double as a multiple of `2 ^ minExponent`. -/
def units (x : Double) : Nat :=
  let (m, q) := x.magnitude
  m * Nat.pow 2 (q - minExponent).toNat

/-- The number of smallest positive doubles in one. -/
def unitsInOne : Nat :=
  Nat.pow 2 (-minExponent).toNat

/-- The double nearest to the given share, `num / den`; a share of nothing keeps the sign. -/
def nearest (negative : Bool) (num den : Nat) : Double :=
  if num = 0 then ofMagnitudeBits negative 0 else ofRatio negative num den

/-- The double nearest to a natural number, unless that is an infinity. -/
def ofNat? (n : Nat) : Option Double :=
  let x := nearest false n 1
  if x.isInfinite then none else some x

/-- The same magnitude with the other sign. -/
def negate (x : Double) : Double :=
  ofMagnitudeBits (!x.isNegative) (x.bits.toNat % Nat.pow 2 63)

/-- The units of a finite double with their sign. -/
def signedUnits (x : Double) : Int :=
  if x.isNegative then -(x.units : Int) else x.units

/-- The sum of two doubles. Opposite infinities have none; a sum of zero is negative only if both
of its parts are. -/
def add (x y : Double) : Double :=
  if x.isNaN || y.isNaN then nan
  else if x.isInfinite then
    if y.isInfinite && x.isNegative != y.isNegative then nan else x
  else if y.isInfinite then y
  else
    let sum := x.signedUnits + y.signedUnits
    let negative := if sum = 0 then x.isNegative && y.isNegative else decide (sum < 0)
    nearest negative sum.natAbs unitsInOne

/-- The product of two doubles. An infinity has none with zero. -/
def mul (x y : Double) : Double :=
  let negative := x.isNegative != y.isNegative
  if x.isNaN || y.isNaN then nan
  else if x.isInfinite || y.isInfinite then
    if x.isZero || y.isZero then nan else infinity negative
  else nearest negative (x.units * y.units) (unitsInOne * unitsInOne)

end Autogen.Double
