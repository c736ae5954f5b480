import Autogen.Config.Toml.Moment

/-!
# TOML scalars

The characters of a TOML text and the readers of its strings, numbers and keys.

## Main definitions

* `Toml.readString` — a string of any of the four kinds, from its opening quote on.
* `Toml.readPlain` — a number, a moment or a word.
* `Toml.readKey` — a key, which is a list of names.
-/

namespace Autogen.Toml

open Decode

/-- White space inside a line. -/
def isBlank (c : Char) : Bool :=
  c == ' ' || c == '\t'

/-- White space that may also end lines. -/
def isSpace (c : Char) : Bool :=
  isBlank c || c == '\n'

/-- A text without the white space in front of what follows on the line. -/
def skipBlank (cs : List Char) : List Char :=
  cs.dropWhile isBlank

/-- The control characters that may not stand in comments and strings. -/
def isForbidden (c : Char) : Bool :=
  (c.toNat < 0x20 && c != '\t') || c == '\x7f'

/-- A character that a string may hold; one of several lines may also hold line feeds. -/
def isAllowed (lines : Bool) (c : Char) : Bool :=
  !isForbidden c || (lines && c == '\n')

/-! ### Strings -/

/-- The character that an escape of one letter writes. -/
def letterEscape? (c : Char) : Option Char :=
  match c with
  | 'b' => some '\x08'
  | 't' => some '\t'
  | 'n' => some '\n'
  | 'f' => some '\x0c'
  | 'r' => some '\x0d'
  | '"' => some '"'
  | '\\' => some '\\'
  | _ => none

/-- The white space that a backslash at the end of a line removes, given what follows the
backslash: the rest of its line, which must be blank, and the white space after it. -/
def skipLineEnd (cs : List Char) : Option (List Char) :=
  match skipBlank cs with
  | '\n' :: rest => some (rest.dropWhile isSpace)
  | [] => some []
  | _ :: _ => none

/-- The characters that an escape writes, given what follows its backslash, and what is after
it. -/
def takeEscape (lines : Bool) (cs : List Char) : Option (List Char × List Char) :=
  match cs with
  | 'u' :: rest => byNumber 4 rest
  | 'U' :: rest => byNumber 8 rest
  | c :: rest =>
    if lines && isSpace c then (skipLineEnd cs).map fun after => ([], after)
    else (letterEscape? c).map fun escaped => ([escaped], rest)
  | [] => none
where
  /-- The character whose number is written with the given count of digits. -/
  byNumber (count : Nat) (cs : List Char) : Option (List Char × List Char) :=
    let digits := cs.take count
    if digits.length < count then none
    else ((hexNumber? digits).bind charOf?).map fun c => ([c], cs.drop count)

/-- The quotes at the start of a text, at most as many as given, and what comes after them. -/
def takeQuotes (quote : Char) : Nat → List Char → Nat × List Char
  | 0, cs => (0, cs)
  | _ + 1, [] => (0, [])
  | most + 1, c :: rest =>
    if c = quote then
      let (count, after) := takeQuotes quote most rest
      (count + 1, after)
    else (0, c :: rest)

/-- Reads the characters of a string on one line up to its closing quote. The first argument
bounds the number of characters. -/
def readLine (quote : Char) : Nat → Reader (List Char)
  | 0 => fun _ => malformed
  | count + 1 => fun cs =>
    match cs with
    | [] => malformed
    | c :: rest =>
      if c = quote then .ok ([], rest)
      else if c = '\\' ∧ quote = '"' then do
        let (escaped, rest) ← require (takeEscape false rest)
        let (chars, after) ← readLine quote count rest
        return (escaped ++ chars, after)
      else if isAllowed false c then do
        let (chars, after) ← readLine quote count rest
        return (c :: chars, after)
      else malformed

/-- Reads the characters of a string of several lines up to the three quotes that close it. Up to
two quotes in front of those belong to the string. -/
def readLines (quote : Char) : Nat → Reader (List Char)
  | 0 => fun _ => malformed
  | count + 1 => fun cs =>
    match cs with
    | [] => malformed
    | c :: rest =>
      if c = quote then
        let (quotes, after) := takeQuotes quote 5 cs
        if 3 ≤ quotes then .ok (List.replicate (quotes - 3) quote, after)
        else do
          let (chars, after) ← readLines quote count after
          return (List.replicate quotes quote ++ chars, after)
      else if c = '\\' ∧ quote = '"' then do
        let (escaped, rest) ← require (takeEscape true rest)
        let (chars, after) ← readLines quote count rest
        return (escaped ++ chars, after)
      else if isAllowed true c then do
        let (chars, after) ← readLines quote count rest
        return (c :: chars, after)
      else malformed

/-- A text without one line feed in front. -/
def dropLineFeed (cs : List Char) : List Char :=
  match cs with
  | '\n' :: rest => rest
  | _ => cs

/-- Reads a string on one line after its opening quote. -/
def readShortString (quote : Char) : Reader String := fun cs => do
  let (chars, after) ← readLine quote (cs.length + 1) cs
  return (Text.ofChars chars, after)

/-- Reads a string after its first opening quote: three quotes open one of several lines. -/
def readString (quote : Char) : Reader String := fun cs =>
  match cs with
  | a :: b :: rest =>
    if a = quote ∧ b = quote then do
      let body := dropLineFeed rest
      let (chars, after) ← readLines quote (body.length + 1) body
      return (Text.ofChars chars, after)
    else readShortString quote cs
  | _ => readShortString quote cs

/-! ### Numbers -/

/-- The digits of a number, where single underscores may stand between two digits, and what comes
after them. -/
def takeDigits (isDigit : Char → Bool) : List Char → List Char × List Char
  | c :: '_' :: d :: rest =>
    if isDigit c && isDigit d then
      let (digits, after) := takeDigits isDigit (d :: rest)
      (c :: digits, after)
    else if isDigit c then ([c], '_' :: d :: rest)
    else ([], c :: '_' :: d :: rest)
  | c :: rest =>
    if isDigit c then
      let (digits, after) := takeDigits isDigit rest
      (c :: digits, after)
    else ([], c :: rest)
  | [] => ([], [])

/-- The sign in front of a number, and what comes after it. -/
def takeSign (cs : List Char) : Bool × List Char :=
  match cs with
  | '-' :: rest => (true, rest)
  | '+' :: rest => (false, rest)
  | _ => (false, cs)

/-- The digits after a point, if there are any, and what comes after them. -/
def takeFraction (cs : List Char) : Option (List Char × List Char) :=
  match cs with
  | '.' :: rest =>
    match takeDigits isDecimal rest with
    | ([], _) => none
    | taken => some taken
  | _ => none

/-- The exponent at the end of a number, if there is one, and what comes after it. -/
def takeExponent (cs : List Char) : Option (Int × List Char) :=
  match cs with
  | e :: rest =>
    if e == 'e' || e == 'E' then
      let (negative, rest) := takeSign rest
      match takeDigits isDecimal rest with
      | ([], _) => none
      | (digits, after) =>
        let n := ((numberInBase? 10 digits).getD 0 : Int)
        some (if negative then -n else n, after)
    else none
  | [] => none

/-- The integer in another base than ten, if one is written, and what comes after it. -/
def takeBased (cs : List Char) : Option (Nat × List Char) :=
  match cs with
  | '0' :: letter :: rest => do
    let base ← (match letter with
      | 'x' => some 16
      | 'o' => some 8
      | 'b' => some 2
      | _ => none)
    let (digits, after) := takeDigits (fun c => (hexValue? c).any (· < base)) rest
    if digits.isEmpty then none
    else return (← numberInBase? base digits, after)
  | _ => none

/-- The digits before the point of a number; a zero stands alone. -/
def takeWhole (cs : List Char) : List Char × List Char :=
  match cs with
  | '0' :: rest => (['0'], rest)
  | _ => takeDigits isDecimal cs

/-- The number in base ten, if one is written, and what comes after it. -/
def takeDecimal (cs : List Char) : Except DecodeFault (Option (Value × List Char)) :=
  let (negative, rest) := takeSign cs
  let (whole, rest) := takeWhole rest
  if whole.isEmpty then .ok none
  else
    match takeFraction rest with
    | some (fraction, rest) =>
      match takeExponent rest with
      | some (exponent, rest) =>
        .ok (some (.float (double negative whole fraction exponent), rest))
      | none => .ok (some (.float (double negative whole fraction 0), rest))
    | none =>
      match takeExponent rest with
      | some (exponent, rest) => .ok (some (.float (double negative whole [] exponent), rest))
      | none => do return some (.int (← integer negative whole), rest)

/-- The words that stand for values. -/
def words : List (String × Value) :=
  [("true", .bool true), ("false", .bool false), ("inf", .float (.infinity false)),
    ("+inf", .float (.infinity false)), ("-inf", .float (.infinity true)), ("nan", .float .nan),
    ("+nan", .float .nan), ("-nan", .float .nan)]

/-- The word at the start of a text with its value, and what comes after it. -/
def takeWord (cs : List Char) : Option (Value × List Char) :=
  words.findSome? fun word =>
    if word.1.toList.isPrefixOf cs then some (word.2, cs.drop word.1.length) else none

/-- Reads a value that is no string and has no parts. -/
def readPlain : Reader Value := fun cs =>
  match takeMoment cs, takeBased cs with
  | some (m, rest), _ => do return (.moment (← require m), rest)
  | none, some (n, rest) => .ok (.int n, rest)
  | none, none => do
    match ← takeDecimal cs with
    | some result => return result
    | none => require (takeWord cs)

/-! ### Keys -/

/-- A character of a name that needs no quotes. -/
def isBare (c : Char) : Bool :=
  c.isAlphanum || c == '-' || c == '_'

/-- Reads one name of a key. -/
def readName : Reader String := fun cs =>
  match cs with
  | '"' :: rest => readShortString '"' rest
  | '\'' :: rest => readShortString '\'' rest
  | _ =>
    let name := cs.takeWhile isBare
    if name.isEmpty then malformed else .ok (.ofList name, cs.dropWhile isBare)

/-- Reads the names of a key, at most as many as given, and the blanks after them. -/
def readNames : Nat → Reader (List String)
  | 0 => fun _ => malformed
  | count + 1 => fun cs => do
    let (name, rest) ← readName cs
    match skipBlank rest with
    | '.' :: rest =>
      let (names, after) ← readNames count (skipBlank rest)
      return (name :: names, after)
    | rest => return ([name], rest)

/-- Reads a key and the blanks after it. -/
def readKey : Reader (List String) := fun cs =>
  readNames (cs.length + 1) cs

end Autogen.Toml
