import Autogen.Text.Printable
import Autogen.Text.Surrogate

/-!
# Quoted text

The quoted spelling of texts and byte strings that messages use for a value of unknown content:
quotes around it, escapes for what cannot be shown.

## Main definitions

* `Text.quoted` — a text in quotes.
* `Text.quotedBytes` — a byte string in quotes, marked by a leading `b`.
-/

namespace Autogen.Text

/-- The hexadecimal digit of a number below sixteen. -/
def hexDigit (n : Nat) : Char :=
  if n < 10 then Char.ofNat (0x30 + n) else Char.ofNat (0x57 + n)

/-- The lowest `width` hexadecimal digits of a number, the highest first. -/
def hexDigits : Nat → Nat → List Char
  | 0, _ => []
  | width + 1, n => hexDigits width (n / 16) ++ [hexDigit (n % 16)]

/-- The quote that encloses the given characters: single quotes, unless that would need an escape
and double quotes would not. -/
def quoteFor (cs : List Char) : Char :=
  if cs.contains '\'' && !cs.contains '"' then '"' else '\''

/-- The escape for a code point by its number, as short as the number allows. -/
def escapeNumber (n : Nat) : List Char :=
  if n < 0x100 then '\\' :: 'x' :: hexDigits 2 n
  else if n < 0x10000 then '\\' :: 'u' :: hexDigits 4 n
  else '\\' :: 'U' :: hexDigits 8 n

/-- The spelling of a character with an escape of its own, if it has one. -/
def namedEscape? (quote c : Char) : Option (List Char) :=
  if c == quote || c == '\\' then some ['\\', c]
  else if c == '\t' then some ['\\', 't']
  else if c == '\n' then some ['\\', 'n']
  else if c == '\r' then some ['\\', 'r']
  else none

/-- The spelling of one character between quotes. -/
def quotedChar (quote c : Char) : List Char :=
  (namedEscape? quote c).getD (if isPrintable c then [c] else escapeNumber c.toNat)

/-- The spelling of one code point between quotes. -/
def quotedCodePoint (quote : Char) (n : Nat) : List Char :=
  if isHalfCode n then escapeNumber n else quotedChar quote (Char.ofNat n)

/-- A text in quotes. -/
def quoted (s : String) : String :=
  let quote := quoteFor s.toList
  .ofList (quote :: (codePoints s).flatMap (quotedCodePoint quote) ++ [quote])

/-- The spelling of one byte between quotes; only the printable ASCII characters are shown. -/
def quotedByte (quote : Char) (b : UInt8) : List Char :=
  let c := Char.ofNat b.toNat
  (namedEscape? quote c).getD
    (if 0x20 ≤ b.toNat && b.toNat < 0x7f then [c] else '\\' :: 'x' :: hexDigits 2 b.toNat)

/-- A byte string in quotes, with its marker. -/
def quotedBytes (bs : List UInt8) : String :=
  let quote := quoteFor (bs.map fun b => Char.ofNat b.toNat)
  .ofList ('b' :: quote :: bs.flatMap (quotedByte quote) ++ [quote])

end Autogen.Text
