import Autogen.Config.Value
import Autogen.Text.Digit
import Autogen.Text.Surrogate

/-!
# Decoding of configuration texts

What the readers of the configuration formats have in common: results, numbers and characters
given by number.

## Main definitions

* `ValueFault`, `DecodeFault` — why a text could not be decoded.
* `Reader` — readers of a part of a text.
* `Decode.integer` — the integer that some digits write.
* `Decode.hexNumber?` — the number that hexadecimal digits write.
* `Decode.joinPairs` — the code points that the units of a text stand for.
-/

namespace Autogen

/-- Why what a text writes has no value: a number has too many digits, or none; no character has the
code point; no date or time has the parts; or a number is too large to be computed with. -/
inductive ValueFault where
  | numberTooLong
  | noDigits
  | noCharacter
  | noMoment
  | tooLarge
deriving DecidableEq, Repr

/-- The text of a value fault. -/
def ValueFault.message : ValueFault → String
  | numberTooLong => "a number has too many digits"
  | noDigits => "a number has no digits"
  | noCharacter => "no character has this code point"
  | noMoment => "there is no such date or time"
  | tooLarge => "a number is too large"

/-- Why a text could not be decoded: it is not in the format, or ends before it is complete; its
bytes are no text; its parts are inside one another too deeply; or a value in it does not exist. -/
inductive DecodeFault where
  | malformed
  | incomplete
  | undecodable
  | tooDeep
  | value (fault : ValueFault)
deriving DecidableEq, Repr

/-- A reader of a part of a text gives what it read and the characters after it. -/
abbrev Reader (α : Type) := List Char → Except DecodeFault (α × List Char)

namespace Decode

/-- The fault of a text that is not in the format. -/
def malformed {α : Type} : Except DecodeFault α :=
  .error .malformed

/-- The result of an optional step, which is at fault if there is none. -/
def require {α : Type} : Option α → Except DecodeFault α
  | some a => .ok a
  | none => malformed

/-- An ASCII decimal digit. -/
def isDecimal (c : Char) : Bool :=
  c.isDigit

/-- The value of a hexadecimal digit. -/
def hexValue? (c : Char) : Option Nat :=
  if c.isDigit then some (c.toNat - 0x30)
  else if 'a' ≤ c ∧ c ≤ 'f' then some (c.toNat - 0x57)
  else if 'A' ≤ c ∧ c ≤ 'F' then some (c.toNat - 0x37)
  else none

/-- The number that digits write in a base, where every digit is below the base. -/
def numberInBase? (base : Nat) (digits : List Char) : Option Nat :=
  digits.foldlM (fun n c =>
    (hexValue? c).bind fun d => if d < base then some (base * n + d) else none) 0

/-- The number that hexadecimal digits write. -/
def hexNumber? (digits : List Char) : Option Nat :=
  numberInBase? 16 digits

/-- The character of a code point that has one. -/
def charOf? (n : Nat) : Option Char :=
  if n.isValidChar then some (Char.ofNat n) else none

/-- The code points of a text, given with the two halves of surrogate pairs apart. -/
def joinPairs : List Nat → List Nat
  | high :: low :: rest =>
    if 0xd800 ≤ high ∧ high < 0xdc00 ∧ 0xdc00 ≤ low ∧ low < 0xe000 then
      (0x10000 + (high - 0xd800) * 0x400 + (low - 0xdc00)) :: joinPairs rest
    else high :: joinPairs (low :: rest)
  | units => units

/-- The integer that decimal digits write, with its sign. -/
def integer (negative : Bool) (digits : List Char) : Except DecodeFault Int :=
  if Text.digitLimit < digits.length then .error (.value .numberTooLong)
  else do
    let n ← require (numberInBase? 10 digits)
    return if negative then -(n : Int) else n

/-- The number of microseconds that the digits of a fraction of a second write; those after the
sixth one do not count. -/
def microseconds (fraction : List Char) : Nat :=
  (numberInBase? 10 ((fraction ++ List.replicate 6 '0').take 6)).getD 0

/-- The double that the parts of a decimal write: the digits before and after the point, and the
exponent of ten. -/
def double (negative : Bool) (whole fraction : List Char) (exponent : Int) : Double :=
  let digits := (numberInBase? 10 (whole ++ fraction)).getD 0
  .ofDecimal negative digits (exponent - fraction.length)

end Decode

end Autogen
