import Autogen.OrderedMap
import Autogen.Text.Blank
import Autogen.Text.Quoted
import Autogen.Text.Split

/-!
# Descriptor text

The file that steers the generation is a list of named texts in sections, written as declarations
of a build language.

## Main definitions

* `Descriptor.escape`, `Descriptor.unescape` — a text between quotes, and back.
* `Descriptor.Section`, `Descriptor.format` — sections of entries, and their text.
* `Descriptor.parse` — the entries of a text.
* `splitList`, `joinNested` — lists inside an entry.
-/

namespace Autogen

namespace Descriptor

/-- The spelling of a character between quotes. -/
def escapeChar (c : Char) : List Char :=
  if c = '\\' ∨ c = '"' ∨ c = '$' then ['\\', c]
  else if c = '\n' then ['\\', 'n']
  else if c = '\r' then ['\\', 'r']
  else [c]

/-- The characters of a text between quotes. -/
def escapeChars (cs : List Char) : List Char :=
  cs.flatMap escapeChar

/-- A text between quotes, with the quotes. -/
def escape (value : String) : String :=
  .ofList ('"' :: escapeChars value.toList ++ ['"'])

/-- The character that an escaped one stands for. -/
def escapedChar (c : Char) : Char :=
  if c = 'n' then '\n' else if c = 'r' then '\r' else if c = 't' then '\t' else c

/-- The characters that escaped ones stand for. A backslash at the end of a line or of the text
stands for itself. -/
def unescapeChars : List Char → List Char
  | '\\' :: c :: rest =>
    if c = '\n' then '\\' :: '\n' :: unescapeChars rest else escapedChar c :: unescapeChars rest
  | c :: rest => c :: unescapeChars rest
  | [] => []

/-- The text that a text between quotes stands for. -/
def unescape (value : String) : String :=
  .ofList (unescapeChars value.toList)

/-- A named text. -/
abbrev Entry := String × String

/-- Entries under a title. -/
structure Section where
  title : String
  entries : List Entry
deriving DecidableEq, Repr

/-- The line that declares an entry. -/
def declaration (entry : Entry) : String :=
  "set(" ++ entry.1 ++ " " ++ escape entry.2 ++ ")"

/-- The lines of a section. -/
def Section.lines (s : Section) : List String :=
  ("# " ++ s.title) :: s.entries.map declaration

/-- The lines of sections, with an empty line between two of them. Sections without entries are
left out. -/
def lines (sections : List Section) : List String :=
  [""].intercalate ((sections.filter fun s => !s.entries.isEmpty).map Section.lines)

/-- The text of sections. -/
def format (sections : List Section) : String :=
  Text.join "\n" (lines sections) ++ "\n"

/-- The characters of a key. -/
def isKeyChar (c : Char) : Bool :=
  c.isAlphanum || c = '_' || c = '.' || c = '+' || c = '-'

theorem isKeyChar_iff {c : Char} : isKeyChar c = true ↔ ('A' ≤ c ∧ c ≤ 'Z') ∨ ('a' ≤ c ∧ c ≤ 'z') ∨
    ('0' ≤ c ∧ c ≤ '9') ∨ c ∈ ['_', '.', '+', '-'] := by
  have hupper : c.isUpper = true ↔ 'A' ≤ c ∧ c ≤ 'Z' := decide_eq_true_iff
  have hlower : c.isLower = true ↔ 'a' ≤ c ∧ c ≤ 'z' :=
    Bool.and_eq_true_iff.trans (and_congr decide_eq_true_iff decide_eq_true_iff)
  have hdigit : c.isDigit = true ↔ '0' ≤ c ∧ c ≤ '9' :=
    Bool.and_eq_true_iff.trans (and_congr decide_eq_true_iff decide_eq_true_iff)
  have halphanum : c.isAlphanum = true ↔ (c.isUpper = true ∨ c.isLower = true) ∨ c.isDigit = true :=
    Bool.or_eq_true_iff.trans (or_congr_left Bool.or_eq_true_iff)
  simp [isKeyChar, halphanum, hupper, hlower, hdigit, or_assoc]

/-- Reads the text between quotes up to the quote that ends it; gives it as written, and what
follows the quote. -/
def takeBody : List Char → Option (List Char × List Char)
  | [] => none
  | ['\\'] => none
  | '"' :: rest => some ([], rest)
  | '\\' :: c :: rest => (takeBody rest).map fun (body, after) => ('\\' :: c :: body, after)
  | c :: rest => (takeBody rest).map fun (body, after) => (c :: body, after)

/-- The rest of a text that starts with the given characters. -/
def dropStart? (start cs : List Char) : Option (List Char) :=
  if start.isPrefixOf cs then some (cs.drop start.length) else none

/-- The key and the text between quotes of a line that declares an entry. -/
def readDeclaration (line : List Char) : Option (List Char × List Char) := do
  let rest ← dropStart? "set(".toList line
  let key := rest.takeWhile isKeyChar
  if key.isEmpty then none
  else
    let rest ← dropStart? " \"".toList (rest.dropWhile isKeyChar)
    let (body, after) ← takeBody rest
    if after = [')'] then some (key, body) else none

/-- A line that is neither blank, nor a comment, nor a declaration. -/
structure MalformedLine where
  number : Nat
  line : String
deriving DecidableEq, Repr

/-- The text of a malformed line fault. -/
def MalformedLine.message (m : MalformedLine) : String :=
  "Malformed descriptor line " ++ toString m.number ++ ": " ++ Text.quoted m.line

/-- What a line says: nothing, an entry, or something malformed. -/
inductive LineContent where
  | nothing
  | entry (key value : String)
  | malformed
deriving DecidableEq, Repr

/-- What a line says, the white space at its ends aside. -/
def readLine (line : String) : LineContent :=
  let stripped := Text.stripChars line.toList
  match stripped with
  | [] => .nothing
  | '#' :: _ => .nothing
  | _ =>
    match readDeclaration stripped with
    | some (key, body) => .entry (.ofList key) (.ofList (unescapeChars body))
    | none => .malformed

/-- Reads lines in turn, counting them. -/
def parseLines : Nat → OrderedMap String String → List String →
    Except MalformedLine (OrderedMap String String)
  | _, values, [] => .ok values
  | number, values, line :: rest =>
    match readLine line with
    | .nothing => parseLines (number + 1) values rest
    | .entry key value => parseLines (number + 1) (values.insert key value) rest
    | .malformed => .error ⟨number, line⟩

/-- The entries of a text, line by line. -/
def parse (text : String) : Except MalformedLine (OrderedMap String String) :=
  parseLines 1 .empty (Text.splitOn "\n" text)

end Descriptor

/-- The separator of the elements of a list inside an element of a list. -/
def nestedSeparator : String := "@LSEP@"

/-- The elements of a list that is an element of a list, as one text. -/
def joinNested (items : List String) : String :=
  Text.join nestedSeparator items

/-- The elements of a list written as one text; the empty text is the empty list. -/
def splitList (value separator : String) : List String :=
  if value = "" then [] else Text.splitOn separator value

end Autogen
