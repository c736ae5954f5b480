/-!
# Base 32

The spelling of byte strings by the 32 characters of RFC 4648.

## Main definitions

* `Digest.base32Chars` — the characters that spell a byte string.
-/

namespace Autogen.Digest

/-- The character of a number below 32: the capitals and then the digits from two. -/
def base32Digit (n : Nat) : Char :=
  if n < 26 then Char.ofNat (0x41 + n) else Char.ofNat (0x32 + (n - 26))

/-- The lowest `count` digits in base 32, the highest first. -/
def base32Digits : Nat → Nat → List Char
  | 0, _ => []
  | count + 1, n => base32Digits count (n / 32) ++ [base32Digit (n % 32)]

/-- The number whose bytes are given, the highest first. -/
def numberOfBytes (bytes : List UInt8) : Nat :=
  bytes.foldl (fun n b => 256 * n + b.toNat) 0

/-- The characters that spell a group of up to five bytes: enough for their bits, and then padding
up to eight. -/
def base32Group (group : List UInt8) : List Char :=
  let count := (8 * group.length + 4) / 5
  base32Digits count (numberOfBytes group * Nat.pow 2 (5 * count - 8 * group.length)) ++
    List.replicate (8 - count) '='

/-- The spelling of a byte string. -/
def base32Chars : List UInt8 → List Char
  | a :: b :: c :: d :: e :: rest => base32Group [a, b, c, d, e] ++ base32Chars rest
  | [] => []
  | group => base32Group group

end Autogen.Digest
