/-!
# Places in a YAML text

The characters of a YAML text with their place: layout is part of the format, so readers have to
know the line and the column that they have come to.

## Main definitions

* `Yaml.Cursor` — the rest of a text and its place.
* `Yaml.Cursor.step`, `Yaml.Cursor.skip`, `Yaml.Cursor.skipWhile` — going on in the text.
* `Yaml.isBreak`, `Yaml.atSeparator`, `Yaml.Cursor.atMark` — the characters that structure a text.
-/

namespace Autogen.Yaml

/-- The characters that end a line. -/
def isBreak (c : Char) : Bool :=
  c == '\n' || c == '\x85' || c == '\u2028' || c == '\u2029'

/-- What a line end stands for inside a scalar. -/
def breakChar (c : Char) : Char :=
  if c == '\x85' then '\n' else c

/-- White space inside a line. -/
def isBlank (c : Char) : Bool :=
  c == ' ' || c == '\t'

/-- Whether a text begins with white space or has ended. -/
def atSeparator (cs : List Char) : Bool :=
  cs.head?.all fun c => isBlank c || isBreak c

/-- A character that may stand in a text. -/
def isPrintable (c : Char) : Bool :=
  let n := c.toNat
  n == 0x09 || n == 0x0a || n == 0x0d || (0x20 ≤ n && n ≤ 0x7e) || n == 0x85 ||
    (0xa0 ≤ n && n ≤ 0xfffd) || 0x10000 ≤ n

/-- The characters from a place on, the number of the characters before it, and the line and the
column of the place. -/
structure Cursor where
  rest : List Char
  index : Nat := 0
  line : Nat := 0
  column : Nat := 0

namespace Cursor

/-- The place after the next character. -/
def step (p : Cursor) : Cursor :=
  match p.rest with
  | [] => p
  | c :: rest =>
    if isBreak c then ⟨rest, p.index + 1, p.line + 1, 0⟩
    else ⟨rest, p.index + 1, p.line, if c == '\ufeff' then p.column else p.column + 1⟩

/-- The place after the given number of characters. -/
def skip : Nat → Cursor → Cursor
  | 0, p => p
  | count + 1, p => skip count p.step

/-- The place after the characters of a kind. -/
def skipWhile (p : Cursor) (kind : Char → Bool) : Cursor :=
  p.skip (p.rest.takeWhile kind).length

/-- Whether the next character is a line end. -/
def atBreak (p : Cursor) : Bool :=
  p.rest.head?.any isBreak

/-- Whether the three given characters stand alone at the start of a line. -/
def startsWith (p : Cursor) (mark : List Char) : Bool :=
  p.column == 0 && mark.isPrefixOf p.rest && atSeparator (p.rest.drop mark.length)

/-- The mark that begins a document. -/
def startMark : List Char := ['-', '-', '-']

/-- The mark that ends a document. -/
def endMark : List Char := ['.', '.', '.']

/-- Whether a document begins or ends here. -/
def atMark (p : Cursor) : Bool :=
  p.startsWith startMark || p.startsWith endMark

end Cursor

end Autogen.Yaml
