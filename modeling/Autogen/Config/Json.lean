import Autogen.Config.Decode

/-!
# JSON

Reading of JSON texts, and the escapes of what cannot stand in them. Besides the standard's values
the names of the special numbers are read.

## Main definitions

* `Json.nestingLimit` — how deep values may be inside one another.
* `Json.readValue` — a reader of one value.
* `Json.parse` — the value that a whole text writes.
* `Json.escapeHalves` — a written text with escapes for the halves in it.
-/

namespace Autogen.Json

open Decode

/-- White space between the parts of a value. -/
def isBlank (c : Char) : Bool :=
  c == ' ' || c == '\t' || c == '\n' || c == '\r'

/-- A text without the white space in front. -/
def skipBlank (cs : List Char) : List Char :=
  cs.dropWhile isBlank

/-- The character that an escape of one letter writes. -/
def letterEscape? (c : Char) : Option Nat :=
  match c with
  | '"' => some 0x22
  | '\\' => some 0x5c
  | '/' => some 0x2f
  | 'b' => some 0x08
  | 'f' => some 0x0c
  | 'n' => some 0x0a
  | 'r' => some 0x0d
  | 't' => some 0x09
  | _ => none

/-- Reads the characters of a string up to its closing quote, as numbers. Escapes by number may
write the halves of a surrogate pair, which are put together afterwards. -/
def readUnits : Reader (List Nat)
  | [] => malformed
  | '"' :: rest => .ok ([], rest)
  | '\\' :: 'u' :: a :: b :: c :: d :: rest => do
    let unit ← require (hexNumber? [a, b, c, d])
    let (units, after) ← readUnits rest
    return (unit :: units, after)
  | '\\' :: c :: rest => do
    let unit ← require (letterEscape? c)
    let (units, after) ← readUnits rest
    return (unit :: units, after)
  | c :: rest =>
    if c.toNat < 0x20 then malformed
    else do
      let (units, after) ← readUnits rest
      return (c.toNat :: units, after)

/-- Reads a string after its opening quote. -/
def readString : Reader String := fun cs => do
  let (units, after) ← readUnits cs
  return (Text.ofCodePoints (joinPairs units), after)

/-- The fraction of a number, if one follows: its digits and what comes after them. -/
def takeFraction (cs : List Char) : Option (List Char × List Char) :=
  match cs with
  | '.' :: rest =>
    if (rest.takeWhile isDecimal).isEmpty then none
    else some (rest.takeWhile isDecimal, rest.dropWhile isDecimal)
  | _ => none

/-- The sign in front of an exponent, and what comes after it. -/
def takeSign (cs : List Char) : Bool × List Char :=
  match cs with
  | '-' :: rest => (true, rest)
  | '+' :: rest => (false, rest)
  | _ => (false, cs)

/-- The exponent of a number, if one follows: its value and what comes after it. -/
def takeExponent (cs : List Char) : Option (Int × List Char) :=
  match cs with
  | e :: rest =>
    if e == 'e' || e == 'E' then
      let (negative, rest) := takeSign rest
      let digits := rest.takeWhile isDecimal
      if digits.isEmpty then none
      else
        let n := ((numberInBase? 10 digits).getD 0 : Int)
        some (if negative then -n else n, rest.dropWhile isDecimal)
    else none
  | [] => none

/-- The digits before the point of a number; a zero stands alone. -/
def takeWhole (cs : List Char) : List Char × List Char :=
  match cs with
  | '0' :: rest => (['0'], rest)
  | _ => (cs.takeWhile isDecimal, cs.dropWhile isDecimal)

/-- Reads a number after its sign. -/
def readNumber (negative : Bool) : Reader Value := fun cs =>
  let (whole, rest) := takeWhole cs
  if whole.isEmpty then malformed
  else
    match takeFraction rest with
    | some (fraction, rest) =>
      match takeExponent rest with
      | some (exponent, rest) => .ok (.float (double negative whole fraction exponent), rest)
      | none => .ok (.float (double negative whole fraction 0), rest)
    | none =>
      match takeExponent rest with
      | some (exponent, rest) => .ok (.float (double negative whole [] exponent), rest)
      | none => do return (.int (← integer negative whole), rest)

/-- The words that stand for values. -/
def words : List (String × Value) :=
  [("null", .null), ("true", .bool true), ("false", .bool false), ("NaN", .float .nan),
    ("Infinity", .float (.infinity false)), ("-Infinity", .float (.infinity true))]

/-- The word at the start of a text with its value, and what comes after it. -/
def takeWord (cs : List Char) : Option (Value × List Char) :=
  words.findSome? fun word =>
    if word.1.toList.isPrefixOf cs then some (word.2, cs.drop word.1.length) else none

/-- Reads the items of an array from the first item on, at most as many as given. -/
def readItems (element : Reader Value) : Nat → Reader (List Value)
  | 0 => fun _ => malformed
  | count + 1 => fun cs => do
    let (item, rest) ← element cs
    match skipBlank rest with
    | ']' :: after => return ([item], after)
    | ',' :: rest =>
      let (items, after) ← readItems element count (skipBlank rest)
      return (item :: items, after)
    | _ => malformed

/-- Reads the fields of an object from the first key on, at most as many as given. -/
def readFields (element : Reader Value) : Nat → Reader Fields
  | 0 => fun _ => malformed
  | count + 1 => fun cs =>
    match cs with
    | '"' :: rest => do
      let (key, rest) ← readString rest
      match skipBlank rest with
      | ':' :: rest =>
        let (value, rest) ← element (skipBlank rest)
        match skipBlank rest with
        | '}' :: after => return ([(.string key, value)], after)
        | ',' :: rest =>
          let (fields, after) ← readFields element count (skipBlank rest)
          return ((.string key, value) :: fields, after)
        | _ => malformed
      | _ => malformed
    | _ => malformed

/-- The number of arrays and objects that may be open at a time. -/
def nestingLimit : Nat := 988

/-- Reads a value that is nested at most as deep as given. -/
def readValue : Nat → Reader Value
  | 0 => fun _ => .error .tooDeep
  | depth + 1 => fun cs =>
    match cs with
    | '"' :: rest => do
      let (s, after) ← readString rest
      return (.string s, after)
    | '[' :: rest =>
      match skipBlank rest with
      | ']' :: after => .ok (.list [], after)
      | rest => do
        let (items, after) ← readItems (readValue depth) rest.length rest
        return (.list items, after)
    | '{' :: rest =>
      match skipBlank rest with
      | '}' :: after => .ok (.map [], after)
      | rest => do
        let (fields, after) ← readFields (readValue depth) rest.length rest
        return (Value.mapping fields, after)
    | _ =>
      match takeWord cs with
      | some result => .ok result
      | none =>
        match cs with
        | '-' :: rest => readNumber true rest
        | _ => readNumber false cs

/-- The value that a text writes, with nothing but white space around it. -/
def parse (text : List Char) : Except DecodeFault Value := do
  let (value, rest) ← readValue (nestingLimit + 1) (skipBlank text)
  if (skipBlank rest).isEmpty then return value else malformed

/-- The characters that write a code point inside a text. A half is written by its escape. -/
def written (n : Nat) : List Char :=
  if Text.isHalfCode n then '\\' :: 'u' :: Nat.toDigits 16 n else [Char.ofNat n]

/-- A written text in which the halves are written by their escapes. -/
def escapeHalves (text : String) : String :=
  .ofList ((Text.codePoints text).flatMap written)

end Autogen.Json
