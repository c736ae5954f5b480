import Autogen.Config.Decode
import Autogen.Config.Yaml.Cursor

/-!
# YAML scalars

The texts of plain and quoted scalars. A scalar may go on over several lines; a line end between
its words is a space, and empty lines are line feeds.

## Main definitions

* `Yaml.readPlain` — a scalar without quotes.
* `Yaml.readQuoted` — a scalar in quotes.
-/

namespace Autogen.Yaml

open Decode

/-- Goes past line ends and the white space between them: the characters that the line ends stand
for, whether a document mark stopped it, and the place after them. The first argument bounds the
number of line ends. -/
def skipBreaks (kind : Char → Bool) : Nat → Cursor → List Char × Bool × Cursor
  | 0, p => ([], false, p)
  | count + 1, p =>
    if p.atMark then ([], true, p)
    else
      let p := p.skipWhile kind
      match p.rest with
      | [] => ([], false, p)
      | c :: _ =>
        if isBreak c then
          let (breaks, mark, after) := skipBreaks kind count p.step
          (breakChar c :: breaks, mark, after)
        else ([], false, p)

/-- What a line end and the empty lines after it stand for. -/
def fold (first : Char) (breaks : List Char) : List Char :=
  if breakChar first != '\n' then breakChar first :: breaks
  else if breaks.isEmpty then [' ']
  else breaks

/-- Whether what follows a colon makes it an indicator. -/
def afterColon (flow : Bool) (cs : List Char) : Bool :=
  atSeparator cs || (flow && cs.head?.any [',', '[', ']', '{', '}'].contains)

/-- The characters of a plain scalar up to the next white space or indicator. -/
def plainRun (flow : Bool) : List Char → List Char
  | [] => []
  | c :: rest =>
    if isBlank c || isBreak c || (c == ':' && afterColon flow rest) ||
        (flow && [',', '?', '[', ']', '{', '}'].contains c) then []
    else c :: plainRun flow rest

/-- Whether a plain scalar ends at a place behind white space: in front of a comment, or where the
line is not indented enough. -/
def plainEnds (flow : Bool) (indent : Nat) (p : Cursor) : Bool :=
  p.rest.head? == some '#' || (!flow && p.column < indent)

/-- Reads a plain scalar. Gives its characters, the place after it and the white space behind it,
and whether that white space has line ends in it. The argument `fresh` says so of the white space
in front; the number bounds the number of words. -/
def readPlain (flow : Bool) (indent : Nat) :
    Nat → Bool → Cursor → List Char × Bool × Cursor
  | 0, fresh, p => ([], fresh, p)
  | count + 1, fresh, p =>
    let run := plainRun flow p.rest
    if run.isEmpty then ([], fresh, p)
    else
      let p := p.skip run.length
      let spaces := p.rest.takeWhile (· == ' ')
      let p := p.skip spaces.length
      match p.rest with
      | [] => (run, false, p)
      | c :: _ =>
        if isBreak c then
          let (breaks, mark, p) := skipBreaks (· == ' ') p.rest.length p.step
          if mark || plainEnds flow indent p then (run, true, p)
          else
            let (more, fresh, after) := readPlain flow indent count true p
            (if more.isEmpty then run else run ++ fold c breaks ++ more, fresh, after)
        else if spaces.isEmpty || plainEnds flow indent p then (run, false, p)
        else
          let (more, fresh, after) := readPlain flow indent count false p
          (if more.isEmpty then run else run ++ spaces ++ more, fresh, after)

/-- The character that an escape of one letter writes. -/
def letterEscape? (c : Char) : Option Char :=
  match c with
  | '0' => some '\x00'
  | 'a' => some '\x07'
  | 'b' => some '\x08'
  | 't' => some '\t'
  | '\t' => some '\t'
  | 'n' => some '\n'
  | 'v' => some '\x0b'
  | 'f' => some '\x0c'
  | 'r' => some '\x0d'
  | 'e' => some '\x1b'
  | ' ' => some ' '
  | '"' => some '"'
  | '\\' => some '\\'
  | '/' => some '/'
  | 'N' => some '\x85'
  | '_' => some '\xa0'
  | 'L' => some '\u2028'
  | 'P' => some '\u2029'
  | _ => none

/-- The number of digits of an escape by number. -/
def escapeDigits? (c : Char) : Option Nat :=
  match c with
  | 'x' => some 2
  | 'u' => some 4
  | 'U' => some 8
  | _ => none

/-- The number from which on code points do not fit the words that they are computed in. -/
def wordLimit : Nat := Nat.pow 2 31

/-- The fault of a text that goes on otherwise than it may, or has ended. -/
def endsEarly {α : Type} (rest : List Char) : Except DecodeFault α :=
  .error (if rest.isEmpty then .incomplete else .malformed)

/-- The code point that hexadecimal digits write. The halves of surrogate pairs count as well; they
are not put together. -/
def codePointOfDigits (digits : List Char) : Except DecodeFault Nat := do
  let n ← require (hexNumber? digits)
  if Text.IsCodePoint n then return n
  else .error (.value (if wordLimit ≤ n then .tooLarge else .noCharacter))

/-- The code points that an escape writes, given the place of the character after its backslash,
and the place after it. A backslash at the end of a line removes the line end. -/
def takeEscape (p : Cursor) : Except DecodeFault (List Nat × Cursor) :=
  match p.rest with
  | [] => .error .incomplete
  | c :: rest =>
    match letterEscape? c, escapeDigits? c with
    | some escaped, _ => .ok ([escaped.toNat], p.step)
    | none, some count =>
      let digits := (rest.take count).takeWhile fun c => (hexValue? c).isSome
      if digits.length < count then endsEarly (rest.drop digits.length)
      else do return ([← codePointOfDigits digits], p.skip (count + 1))
    | none, none =>
      if isBreak c then
        match skipBreaks isBlank p.rest.length p.step with
        | (breaks, false, after) => .ok (breaks.map Char.toNat, after)
        | (_, true, _) => malformed
      else malformed

/-- Reads the code points of a quoted scalar after its opening quote. The number bounds its
length. -/
def readQuoted (double : Bool) : Nat → Cursor → Except DecodeFault (List Nat × Cursor)
  | 0, _ => malformed
  | count + 1, p =>
    match p.rest with
    | [] => .error .incomplete
    | c :: rest =>
      if c == '\'' && !double then
        if rest.head? == some '\'' then do
          let (more, after) ← readQuoted double count (p.skip 2)
          return ('\''.toNat :: more, after)
        else .ok ([], p.step)
      else if c == '"' && double then .ok ([], p.step)
      else if c == '\\' && double then do
        let (escaped, p) ← takeEscape p.step
        let (more, after) ← readQuoted double count p
        return (escaped ++ more, after)
      else if isBlank c || isBreak c then do
        let spaces := p.rest.takeWhile isBlank
        let (gap, p) ← takeGap spaces (p.skip spaces.length)
        let (more, after) ← readQuoted double count p
        return (gap.map Char.toNat ++ more, after)
      else do
        let (more, after) ← readQuoted double count p.step
        return (c.toNat :: more, after)
where
  /-- What the white space inside a quoted scalar stands for, given the part of it on the line. -/
  takeGap (spaces : List Char) (p : Cursor) : Except DecodeFault (List Char × Cursor) :=
    match p.rest with
    | [] => .error .incomplete
    | c :: _ =>
      if isBreak c then
        match skipBreaks isBlank p.rest.length p.step with
        | (breaks, false, after) => .ok (fold c breaks, after)
        | (_, true, _) => malformed
      else .ok (spaces, p)

end Autogen.Yaml
