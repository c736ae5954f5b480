import Autogen.Config.Toml.Scalar
import Autogen.Config.Toml.Table
import Autogen.Text.Split

/-!
# TOML

Reading of TOML texts.

## Main definitions

* `Toml.readValue` — a reader of one value.
* `Toml.parse` — the value that a whole text writes.
-/

namespace Autogen.Toml

open Decode

/-- A text without the comment in front of it. -/
def skipComment (cs : List Char) : Option (List Char) :=
  match cs with
  | '#' :: rest =>
    if (rest.takeWhile (· != '\n')).any isForbidden then none
    else some (rest.dropWhile (· != '\n'))
  | _ => some cs

/-- A text without the white space and the comments in front of an item of an array. The first
argument bounds their number. -/
def skipBetween : Nat → List Char → Option (List Char)
  | 0, _ => none
  | count + 1, cs =>
    match cs.dropWhile isSpace with
    | '#' :: rest => (skipComment ('#' :: rest)).bind (skipBetween count)
    | rest => some rest

/-- What is left in front of an item of an array. -/
def nextItem (cs : List Char) : Except DecodeFault (List Char) :=
  require (skipBetween (cs.length + 1) cs)

/-- Reads the items of an array from the first item on, at most as many as given. A comma may
follow the last one. -/
def readItems (element : Reader Value) : Nat → Reader (List Value)
  | 0 => fun _ => malformed
  | count + 1 => fun cs => do
    let (item, rest) ← element cs
    match ← nextItem rest with
    | ']' :: after => return ([item], after)
    | ',' :: rest =>
      match ← nextItem rest with
      | ']' :: after => return ([item], after)
      | rest =>
        let (items, after) ← readItems element count rest
        return (item :: items, after)
    | _ => malformed

/-- The names in front of the last name of a key, and the last one. -/
def splitKey (names : List String) : List String × String :=
  (names.dropLast, names.getLast?.getD "")

/-- Reads a key, an equals sign and a value. -/
def readPair (element : Reader Value) : Reader (List String × Value) := fun cs => do
  let (names, rest) ← readKey cs
  match rest with
  | '=' :: rest =>
    let (v, after) ← element (skipBlank rest)
    return ((names, v), after)
  | _ => malformed

/-- Reads the pairs of an inline table from the first key on, at most as many as given. -/
def readPairs (element : Reader Value) : Nat → Entries → Reader Entries
  | 0, _ => fun _ => malformed
  | count + 1, entries => fun cs => do
    let ((names, v), rest) ← readPair element cs
    let (parents, key) := splitKey names
    let entries ← require (assign 0 [] parents key v entries)
    match skipBlank rest with
    | '}' :: after => return (entries, after)
    | ',' :: rest => readPairs element count entries (skipBlank rest)
    | _ => malformed

/-- The room for values inside one another. An array takes up two parts of it and a table three. -/
def nestingRoom : Nat := 990

/-- Reads a value for whose parts there is the given room. -/
def readValue : Nat → Reader Value
  | room + 3 => fun cs =>
    match cs with
    | '"' :: rest => do
      let (s, after) ← readString '"' rest
      return (.string s, after)
    | '\'' :: rest => do
      let (s, after) ← readString '\'' rest
      return (.string s, after)
    | '[' :: rest => do
      match ← nextItem rest with
      | ']' :: after => return (.list [], after)
      | rest =>
        let (items, after) ← readItems (readValue (room + 1)) rest.length rest
        return (.list items, after)
    | '{' :: rest =>
      match skipBlank rest with
      | '}' :: after => .ok (.map [], after)
      | rest => do
        let (entries, after) ← readPairs (readValue room) rest.length [] rest
        return (.map (Entries.fields entries), after)
    | _ => readPlain cs
  | _ => fun _ => .error .tooDeep

/-- A document in the middle of being read: its entries so far, the path of the current header and
the number of the current section. -/
structure Draft where
  entries : Entries := []
  header : List String := []
  number : Nat := 0

/-- A draft in which a new section has begun, whose header has changed the entries. -/
def Draft.enter (d : Draft) (names : List String)
    (change : List String → String → Entries → Option Entries) : Except DecodeFault Draft := do
  let (parents, key) := splitKey names
  return ⟨← require (change parents key d.entries), names, d.number + 1⟩

/-- Reads what stands on a line from its first character on: the header of a section or an
assignment. -/
def readStatement (d : Draft) : Reader Draft := fun cs =>
  match cs with
  | '[' :: '[' :: rest => do
    let (names, rest) ← readKey (skipBlank rest)
    let d ← d.enter names addRow
    match rest with
    | ']' :: ']' :: after => return (d, after)
    | _ => malformed
  | '[' :: rest => do
    let (names, rest) ← readKey (skipBlank rest)
    let d ← d.enter names (openTable (d.number + 1))
    match rest with
    | ']' :: after => return (d, after)
    | _ => malformed
  | _ => do
    let ((names, v), after) ← readPair (readValue nestingRoom) cs
    let (parents, key) := splitKey names
    let entries ← require (assign d.number d.header parents key v d.entries)
    return ({ d with entries }, after)

/-- What follows the end of a line, with nothing but a comment in front of it. -/
def endLine (cs : List Char) : Except DecodeFault (List Char) := do
  match ← require (skipComment (skipBlank cs)) with
  | [] => return []
  | '\n' :: rest => return rest
  | _ => malformed

/-- Reads the lines of a document, at most as many as given. -/
def readDocument : Nat → Draft → List Char → Except DecodeFault Entries
  | 0, _, _ => malformed
  | count + 1, d, cs =>
    match skipBlank cs with
    | [] => .ok d.entries
    | '\n' :: rest => readDocument count d rest
    | '#' :: rest => do readDocument count d (← endLine ('#' :: rest))
    | cs => do
      let (d, rest) ← readStatement d cs
      readDocument count d (← endLine rest)

/-- A text in which a carriage return in front of a line feed is left out. -/
def joinLineEnds : List Char → List Char
  | '\r' :: '\n' :: rest => '\n' :: joinLineEnds rest
  | c :: rest => c :: joinLineEnds rest
  | [] => []

/-- The value that a text writes. -/
def parse (text : List Char) : Except DecodeFault Value := do
  let cs := joinLineEnds text
  return .map (Entries.fields (← readDocument (cs.length + 1) {} cs))

end Autogen.Toml
