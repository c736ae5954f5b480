/-!
# Double-precision numbers

Numbers of the IEEE 754 binary64 format by their bits, and the double nearest to a decimal.

## Main definitions

* `Double` — a number of the format.
* `Double.magnitude` — the significand and the exponent of two of a finite number.
* `Double.ofDecimal` — the double nearest to a decimal fraction.
* `Double.integer?` — the integer that a double is, if it is one.
-/

namespace Autogen

/-- A number of the binary64 format, by its bits. -/
structure Double where
  bits : UInt64
deriving DecidableEq, Repr, Inhabited

namespace Double

/-- The number of bits of the significand that are stored. -/
def fractionWidth : Nat := 52

/-- The value of the exponent field shared by the infinities and the values that are no number. -/
def specialField : Nat := 2047

/-- The exponent of two of the last place of the smallest numbers. -/
def minExponent : Int := -1074

/-- Whether the sign bit is set. -/
def isNegative (x : Double) : Bool :=
  Nat.pow 2 63 ≤ x.bits.toNat

/-- The exponent field. -/
def exponentField (x : Double) : Nat :=
  x.bits.toNat / Nat.pow 2 fractionWidth % Nat.pow 2 11

/-- The stored bits of the significand. -/
def fraction (x : Double) : Nat :=
  x.bits.toNat % Nat.pow 2 fractionWidth

/-- Whether this is no number. -/
def isNaN (x : Double) : Bool :=
  x.exponentField == specialField && x.fraction != 0

/-- Whether this is one of the two infinities. -/
def isInfinite (x : Double) : Bool :=
  x.exponentField == specialField && x.fraction == 0

/-- For a finite number, the integers `m` and `q` for which its magnitude is `m * 2 ^ q`. -/
def magnitude (x : Double) : Nat × Int :=
  if x.exponentField = 0 then (x.fraction, minExponent)
  else (Nat.pow 2 fractionWidth + x.fraction, minExponent + (x.exponentField - 1 : Nat))

/-- Whether this is the positive or the negative zero. -/
def isZero (x : Double) : Bool :=
  x.exponentField == 0 && x.fraction == 0

/-- The bits of a sign, with the given bits below it. -/
def ofMagnitudeBits (negative : Bool) (bits : Nat) : Double :=
  ⟨UInt64.ofNat (bits + if negative then Nat.pow 2 63 else 0)⟩

/-- The infinity of the given sign. -/
def infinity (negative : Bool) : Double :=
  ofMagnitudeBits negative (specialField * Nat.pow 2 fractionWidth)

/-- The value that is no number. -/
def nan : Double :=
  ofMagnitudeBits false (specialField * Nat.pow 2 fractionWidth + Nat.pow 2 51)

/-- The quotient of two naturals rounded to the nearest one, a half going to the even neighbour. -/
def roundHalfEven (num den : Nat) : Nat :=
  let floor := num / den
  let twice := 2 * (num % den)
  if twice < den then floor
  else if den < twice then floor + 1
  else floor + floor % 2

/-- A positive fraction divided by a power of two, as a fraction. -/
def shiftedRatio (num den : Nat) (e : Int) : Nat × Nat :=
  (num * Nat.pow 2 (-e).toNat, den * Nat.pow 2 e.toNat)

/-- The greatest exponent of two whose power is at most a positive fraction. -/
def floorLog (num den : Nat) : Int :=
  let estimate := (num.log2 : Int) - den.log2
  let (n, d) := shiftedRatio num den estimate
  if n < d then estimate - 1 else estimate

/-- The double nearest to a positive fraction. -/
def ofRatio (negative : Bool) (num den : Nat) : Double :=
  let q := max (floorLog num den - fractionWidth) minExponent
  let (n, d) := shiftedRatio num den q
  let m := roundHalfEven n d
  let field := (q - minExponent).toNat
  let bits := if m < Nat.pow 2 fractionWidth then m else field * Nat.pow 2 fractionWidth + m
  if specialField * Nat.pow 2 fractionWidth ≤ bits then infinity negative
  else ofMagnitudeBits negative bits

/-- The double nearest to `digits * 10 ^ exponent`. Values far outside the range of the format
are told from their exponents alone. -/
def ofDecimal (negative : Bool) (digits : Nat) (exponent : Int) : Double :=
  if digits = 0 ∨ (digits.log2 : Int) + 3 * exponent < -1100 then ofMagnitudeBits negative 0
  else if 1100 < 3 * exponent then infinity negative
  else ofRatio negative (digits * Nat.pow 10 exponent.toNat) (Nat.pow 10 (-exponent).toNat)

/-- The integer that a double is, if it is one. -/
def integer? (x : Double) : Option Int :=
  if x.exponentField = specialField then none
  else
    let (m, q) := x.magnitude
    let (n, d) := (m * Nat.pow 2 q.toNat, Nat.pow 2 (-q).toNat)
    if n % d = 0 then some (if x.isNegative then -(n / d : Nat) else (n / d : Nat)) else none

end Double

end Autogen
