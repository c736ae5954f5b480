import Autogen.Config.Yaml.Timestamp
import Autogen.Number.Arithmetic
import Autogen.Text.Split

/-!
# Values of plain scalars

A scalar without quotes is a truth value, a number, a date or null if it is spelled like one.

## Main definitions

* `Yaml.integer?`, `Yaml.float?` — the spellings of numbers.
* `Yaml.resolve` — the value of a plain scalar.
-/

namespace Autogen.Yaml

open Decode

/-- The words that stand for values. -/
def wordValue? (s : String) : Option Value :=
  if ["", "~", "null", "Null", "NULL"].contains s then some .null
  else if ["yes", "Yes", "YES", "true", "True", "TRUE", "on", "On", "ON"].contains s then
    some (.bool true)
  else if ["no", "No", "NO", "false", "False", "FALSE", "off", "Off", "OFF"].contains s then
    some (.bool false)
  else if [".nan", ".NaN", ".NAN"].contains s then some (.float .nan)
  else none

/-- The words for infinity. -/
def isInfinity (s : String) : Bool :=
  [".inf", ".Inf", ".INF"].contains s

/-- The sign in front of a number, and what comes after it. -/
def takeSign (cs : List Char) : Bool × List Char :=
  match cs with
  | '-' :: rest => (true, rest)
  | '+' :: rest => (false, rest)
  | _ => (false, cs)

/-- The digits of a base without the underscores that may stand anywhere between and around them.
There may be nothing but underscores. -/
def digitsIn? (base : Nat) (cs : List Char) : Option (List Char) :=
  if !cs.isEmpty && cs.all fun c => c == '_' || (hexValue? c).any (· < base) then
    some (cs.filter (· != '_'))
  else none

/-- Decimal digits of which the first one comes before every underscore. -/
def decimal? (cs : List Char) : Option (List Char) :=
  if cs.head?.any isDecimal then digitsIn? 10 cs else none

/-- The digits of a place below sixty, which are one or two. -/
def sixtieth? (cs : List Char) : Option (List Char) :=
  match cs with
  | [a] => if isDecimal a then some cs else none
  | [a, b] => if isDecimal a && isDecimal b && a < '6' then some cs else none
  | _ => none

/-- The places of a number in base sixty, parted by colons. There are at least two, and all but the
first are below sixty. -/
def sexagesimal? (cs : List Char) : Option (List (List Char)) :=
  match Text.splitOn ":" (.ofList cs) with
  | first :: second :: rest => do
    let start ← decimal? first.toList
    return start :: (← (second :: rest).mapM fun part => sixtieth? part.toList)
  | _ => none

/-- The integer with the given places in base sixty. -/
def sexagesimalInteger (places : List (List Char)) : Except DecodeFault Int :=
  places.foldlM (fun n place => do return 60 * n + (← integer false place)) 0

/-- The float with the given places in base sixty, which are added up from the last one on. -/
def sexagesimalFloat (places : List Double) : Except DecodeFault Double :=
  places.reverse.zipIdx.foldlM (fun sum (place, index) =>
    match Double.ofNat? (Nat.pow 60 index) with
    | some weight => .ok (sum.add (place.mul weight))
    | none => .error (.value .tooLarge)) (double false [] [] 0)

/-- The integer that a text writes after its sign, if it writes one. -/
def magnitude? (cs : List Char) : Option (Except DecodeFault Int) :=
  match cs with
  | ['0'] => some (.ok 0)
  | '0' :: 'b' :: rest => (digitsIn? 2 rest).map (based 2)
  | '0' :: 'x' :: rest => (digitsIn? 16 rest).map (based 16)
  | '0' :: _ => (digitsIn? 8 cs).map (based 8)
  | _ =>
    match decimal? cs with
    | some digits => some (integer false digits)
    | none => (sexagesimal? cs).map sexagesimalInteger
where
  /-- The integer that digits of a base write, of which there has to be one. -/
  based (base : Nat) (digits : List Char) : Except DecodeFault Int :=
    if digits.isEmpty then .error (.value .noDigits)
    else do return (← require (numberInBase? base digits) : Nat)

/-- The integer that a text writes, if it writes one. -/
def integer? (cs : List Char) : Option (Except DecodeFault Int) :=
  let (negative, rest) := takeSign cs
  (magnitude? rest).map fun n => n.map fun n => if negative then -n else n

/-- The digits after the point of a number and its exponent of ten, which needs a sign. -/
def fraction? (cs : List Char) : Option (List Char × Int) :=
  let digits := cs.takeWhile fun c => isDecimal c || c == '_'
  let plain := digits.filter (· != '_')
  match cs.dropWhile fun c => isDecimal c || c == '_' with
  | [] => some (plain, 0)
  | e :: sign :: first :: rest =>
    if (e == 'e' || e == 'E') && (sign == '+' || sign == '-') && (first :: rest).all isDecimal then
      (numberInBase? 10 (first :: rest)).map fun n =>
        (plain, if sign == '-' then -(n : Int) else n)
    else none
  | _ => none

/-- The float that a text writes, if it writes one. Numbers without digits before the point have no
sign. -/
def float? (cs : List Char) : Option (Except DecodeFault Double) :=
  let (negative, rest) := takeSign cs
  let whole := rest.takeWhile (· != '.')
  match rest.dropWhile (· != '.') with
  | '.' :: after =>
    if isInfinity (.ofList rest) then some (.ok (.infinity negative))
    else if whole.isEmpty then
      if cs.head? == some '.' && after.head?.any isDecimal then
        (fraction? after).map fun (digits, exponent) => .ok (double false [] digits exponent)
      else none
    else
      match decimal? whole with
      | some whole =>
        (fraction? after).map fun (digits, exponent) =>
          .ok (double negative whole digits exponent)
      | none => do
        let places ← sexagesimal? whole
        if after.all fun c => isDecimal c || c == '_' then
          let fraction := after.filter (· != '_')
          let last := double false (places.getLast?.getD []) fraction 0
          let sum := sexagesimalFloat (places.dropLast.map (double false · [] 0) ++ [last])
          return sum.map fun x => if negative then x.negate else x
        else none
  | _ => none

/-- The spelling of the key whose value is a mapping, or several, to be merged into the mapping that
it stands in. -/
def mergeMark : String := "<<"

/-- The spelling that as a key stands for itself. -/
def defaultMark : String := "="

/-- The value of a timestamp. -/
def Timestamp.value (t : Timestamp) : Except DecodeFault Value :=
  match t.moment? with
  | some m => .ok (.moment m)
  | none => .error (.value .noMoment)

/-- The value of a plain scalar. The marks are keys and have no value. -/
def resolve (s : String) : Except DecodeFault Value :=
  match wordValue? s with
  | some v => .ok v
  | none =>
    if s = mergeMark ∨ s = defaultMark then malformed
    else
      match float? s.toList with
      | some x => x.map .float
      | none =>
        match integer? s.toList with
        | some n => n.map .int
        | none =>
          match Timestamp.ofChars? true s.toList with
          | some t => t.value
          | none => .ok (.string s)

end Autogen.Yaml
