import Autogen.Number.Double

/-!
# Shortest decimal text

The decimal with the fewest digits that reads back as a given double, and its spelling.

## Main definitions

* `Double.shortest` — the digits and the exponent of ten of that decimal.
* `Double.text` — the spelling of a double.
-/

namespace Autogen

namespace Double

/-- The reals that round to a double, as multiples of a quarter of its last place: the lower end,
the value and the upper end, and whether the ends belong to them. -/
structure Neighbourhood where
  low : Nat
  value : Nat
  high : Nat
  closed : Bool
  exponent : Int

/-- The neighbourhood of a finite double. Below a power of two the numbers lie twice as close. -/
def neighbourhood (x : Double) : Neighbourhood :=
  let (m, q) := x.magnitude
  { low := if m = Nat.pow 2 fractionWidth ∧ minExponent < q then 4 * m - 1 else 4 * m - 2
    value := 4 * m
    high := 4 * m + 2
    closed := m % 2 = 0
    exponent := q - 2 }

/-- A multiple of a power of ten near a double, with the two factors that bring such multiples
and the ends of the neighbourhood to one scale. -/
structure Grid where
  tenFactor : Nat
  twoFactor : Nat

/-- The scale on which multiples of `10 ^ s` and of `2 ^ t` are compared. -/
def Grid.of (s t : Int) : Grid :=
  ⟨Nat.pow 10 s.toNat * Nat.pow 2 (-t).toNat, Nat.pow 2 t.toNat * Nat.pow 10 (-s).toNat⟩

/-- Whether the multiple `d` of a grid lies in a neighbourhood. -/
def Grid.hits (g : Grid) (n : Neighbourhood) (d : Nat) : Bool :=
  let point := d * g.tenFactor
  let low := n.low * g.twoFactor
  let high := n.high * g.twoFactor
  if n.closed then low ≤ point && point ≤ high else low < point && point < high

/-- The multiple of a grid in a neighbourhood that is nearest to the value, if any is in it. Only
the two multiples around the value can be; of two equally near the even one is taken. -/
def Grid.nearest? (g : Grid) (n : Neighbourhood) : Option Nat :=
  let value := n.value * g.twoFactor
  let below := value / g.tenFactor
  let toBelow := value - below * g.tenFactor
  let toAbove := (below + 1) * g.tenFactor - value
  match g.hits n below, g.hits n (below + 1) with
  | true, true =>
    some (if toBelow < toAbove then below
      else if toAbove < toBelow then below + 1
      else below + below % 2)
  | true, false => some below
  | false, true => some (below + 1)
  | false, false => none

/-- Whether a multiple of a quarter place is at least the given power of ten. -/
def atLeastPower (n : Neighbourhood) (s : Int) : Bool :=
  let g := Grid.of s n.exponent
  g.tenFactor ≤ n.value * g.twoFactor

/-- The number of digits before the decimal point of a positive value; for a value below one it
is zero or negative, by the zeros that follow the point. -/
def pointPosition (n : Neighbourhood) : Int :=
  let estimate := ((n.value.log2 : Int) + n.exponent) * 30103 / 100000
  if atLeastPower n (estimate + 1) then estimate + 2
  else if atLeastPower n estimate then estimate + 1
  else estimate

/-- The number of digits that is enough to tell all doubles apart. -/
def maxDigits : Nat := 17

/-- The first grid that has a multiple in the neighbourhood, tried with `digits` digits at first
and with one more each time. -/
def firstHit (n : Neighbourhood) (point : Int) : Nat → Nat → Nat × Int
  | 0, digits => (0, point - digits)
  | tries + 1, digits =>
    let s := point - digits
    match (Grid.of s n.exponent).nearest? n with
    | some d => (d, s)
    | none => firstHit n point tries (digits + 1)

/-- Drops zeros at the end of a number, raising the exponent of ten for each. -/
def trimZeros : Nat → Nat × Int → Nat × Int
  | 0, pair => pair
  | fuel + 1, (d, s) => if d != 0 && d % 10 == 0 then trimZeros fuel (d / 10, s + 1) else (d, s)

/-- For a finite double that is not zero, the digits `d` and the exponent `s` for which
`d * 10 ^ s` has the fewest digits among the decimals that read back as its magnitude, and is the
nearest of those. -/
def shortest (x : Double) : Nat × Int :=
  let n := x.neighbourhood
  trimZeros (maxDigits + 1) (firstHit n (pointPosition n) maxDigits 1)

/-- The spelling of an exponent of ten: a sign and at least two digits. -/
def exponentText (e : Int) : String :=
  let digits := toString e.natAbs
  (if e < 0 then "e-" else "e+") ++ (if digits.length < 2 then "0" else "") ++ digits

/-- The spelling of a decimal: positional from the ten-thousandths up to sixteen digits before the
point, and then always with a digit after the point; with an exponent elsewhere. -/
def decimalText (d : Nat) (s : Int) : String :=
  let digits := (toString d).toList
  let point := (digits.length : Int) + s
  if -4 < point ∧ point ≤ 16 then
    if point ≤ 0 then
      .ofList ('0' :: '.' :: List.replicate (-point).toNat '0' ++ digits)
    else if 0 ≤ s then
      .ofList (digits ++ List.replicate s.toNat '0' ++ ['.', '0'])
    else
      .ofList (digits.take point.toNat ++ '.' :: digits.drop point.toNat)
  else
    let mantissa := match digits with
      | first :: second :: rest => first :: '.' :: second :: rest
      | short => short
    .ofList mantissa ++ exponentText (point - 1)

/-- The spelling of a double. -/
def text (x : Double) : String :=
  if x.isNaN then "nan"
  else
    let magnitude :=
      if x.isInfinite then "inf"
      else if x.isZero then "0.0"
      else
        let (d, s) := x.shortest
        decimalText d s
    if x.isNegative then "-" ++ magnitude else magnitude

theorem decimalText_ne_empty (d : Nat) (s : Int) : decimalText d s ≠ "" := by
  have hdigits : (toString d).toList ≠ [] := by
    simp
  unfold decimalText
  simp only
  split
  · split
    · simp
    · split <;> simp
  · split <;> simp_all [exponentText, String.append_eq_empty_iff]

theorem text_ne_empty (x : Double) : x.text ≠ "" := by
  have hmagnitude : (if x.isInfinite then "inf" else if x.isZero then "0.0" else
      decimalText x.shortest.1 x.shortest.2) ≠ "" := by
    split
    · decide
    · split
      · decide
      · exact decimalText_ne_empty _ _
  unfold text
  split
  · decide
  · simp only
    split
    · exact fun h => hmagnitude (String.append_eq_empty_iff.mp h).2
    · exact hmagnitude

end Double

end Autogen
