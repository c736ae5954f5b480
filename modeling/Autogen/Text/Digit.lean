/-!
# Digits

Two classes of digit characters: decimal digits, which have a value in base ten, and the wider
class that also holds superscripts, subscripts and enclosed digits.

## Main definitions

* `Text.digitLimit` — the number of digits of the longest numbers.
* `Text.decimalValue?` — the value of a decimal digit of any script.
* `Text.isDigit` — membership in the wider class.
* `Text.natOfDecimals?` — the number written by a run of decimal digits.
-/

namespace Autogen.Text

/-- The number of decimal digits up to which a number is read or written in base ten. -/
def digitLimit : Nat := 4300

/-- The code points of the digit zero of every script with decimal digits; the digits one to
nine follow each of them. -/
def decimalZeros : List Nat := [
  0x30, 0x660, 0x6f0, 0x7c0, 0x966, 0x9e6, 0xa66, 0xae6,
  0xb66, 0xbe6, 0xc66, 0xce6, 0xd66, 0xde6, 0xe50, 0xed0,
  0xf20, 0x1040, 0x1090, 0x17e0, 0x1810, 0x1946, 0x19d0, 0x1a80,
  0x1a90, 0x1b50, 0x1bb0, 0x1c40, 0x1c50, 0xa620, 0xa8d0, 0xa900,
  0xa9d0, 0xa9f0, 0xaa50, 0xabf0, 0xff10, 0x104a0, 0x10d30, 0x11066,
  0x110f0, 0x11136, 0x111d0, 0x112f0, 0x11450, 0x114d0, 0x11650, 0x116c0,
  0x11730, 0x118e0, 0x11950, 0x11c50, 0x11d50, 0x11da0, 0x16a60, 0x16ac0,
  0x16b50, 0x1d7ce, 0x1d7d8, 0x1d7e2, 0x1d7ec, 0x1d7f6, 0x1e140, 0x1e2f0,
  0x1e950, 0x1fbf0]

/-- Digit characters that have no decimal value, as inclusive ranges. -/
def nonDecimalDigits : List (Nat × Nat) := [
  (0xb2, 0xb3), (0xb9, 0xb9), (0x1369, 0x1371), (0x19da, 0x19da), (0x2070, 0x2070),
  (0x2074, 0x2079), (0x2080, 0x2089), (0x2460, 0x2468), (0x2474, 0x247c), (0x2488, 0x2490),
  (0x24ea, 0x24ea), (0x24f5, 0x24fd), (0x24ff, 0x24ff), (0x2776, 0x277e), (0x2780, 0x2788),
  (0x278a, 0x2792), (0x10a40, 0x10a43), (0x10e60, 0x10e68), (0x11052, 0x1105a), (0x1f100, 0x1f10a)]

/-- The value of a decimal digit, counted from the zero of its script. -/
def decimalValue? (c : Char) : Option Nat :=
  (decimalZeros.find? fun z => z ≤ c.toNat && c.toNat ≤ z + 9).map (c.toNat - ·)

/-- Decimal digits together with superscript, subscript and enclosed digits. -/
def isDigit (c : Char) : Bool :=
  (decimalValue? c).isSome || nonDecimalDigits.any fun r => r.1 ≤ c.toNat && c.toNat ≤ r.2

/-- A text all of whose characters are digits, and which has at least one. -/
def allDigits (s : String) : Bool :=
  !s.toList.isEmpty && s.toList.all isDigit

/-- The number whose decimal digits are `cs`, or nothing when one of them has no decimal value. -/
def natOfDecimals? (cs : List Char) : Option Nat :=
  cs.foldlM (fun n c => (decimalValue? c).map (10 * n + ·)) 0

end Autogen.Text
