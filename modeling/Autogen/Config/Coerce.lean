import Autogen.Config.Fault
import Autogen.Text.Blank
import Autogen.Text.Case

/-!
# Coercion of values

How a configuration value is taken as a list of texts, a truth value or an optional text.

## Main definitions

* `expandList` — the elements of a list written as one text.
* `Value.toStrings`, `Value.toBool`, `Value.toOptionalString` — the coercions.
* `rejectUnknownKeys` — the check that a mapping has known keys only.
-/

namespace Autogen

/-- The character between the elements of a list written as one text. -/
def listSeparator : Char := ';'

/-- The pieces of a list text between separators, read from the left: the piece in progress and
the pieces after it. A separator after a backslash belongs to its piece, without the backslash; a
backslash before anything else is an ordinary character. -/
def listPieces : List Char → List Char × List (List Char)
  | [] => ([], [])
  | '\\' :: ';' :: rest =>
    let (first, later) := listPieces rest
    (';' :: first, later)
  | ';' :: rest =>
    let (first, later) := listPieces rest
    ([], first :: later)
  | c :: rest =>
    let (first, later) := listPieces rest
    (c :: first, later)

/-- The elements of a list written as one text: its pieces that are not empty. -/
def expandList (text : String) : List String :=
  let (first, later) := listPieces text.toList
  ((first :: later).filter fun piece => !piece.isEmpty).map String.ofList

namespace Value

/-- The texts that the items of a list stand for; empty ones are dropped. -/
def itemStrings (name : Option String) : List Value → Except ConfigFault (List String)
  | [] => .ok []
  | item :: rest =>
    match item with
    | string _ | bytes _ => do
      let later ← itemStrings name rest
      return if item.plain = "" then later else item.plain :: later
    | _ => .error (.entryNotString name)

/-- A value as a list of texts: a text is a list written as one text, a list holds texts. -/
def toStrings (name : Option String) : Value → Except ConfigFault (List String)
  | null => .ok []
  | string s => .ok (expandList s)
  | bytes bs => .ok (expandList (bytes bs).plain)
  | list items => itemStrings name items
  | _ => .error (.notStrings name)

/-- The texts that mean true. -/
def trueTexts : List String :=
  ["1", "on", "yes", "true", "y"]

/-- The texts that mean false. -/
def falseTexts : List String :=
  ["0", "off", "no", "false", "n", "ignore", "notfound", ""]

/-- The ending that makes any text mean false. -/
def falseEnding : String := "-notfound"

/-- The truth value that a text means. -/
def boolOfText? (s : String) : Option Bool :=
  let text := Text.lower (Text.strip s)
  if trueTexts.contains text then some true
  else if falseTexts.contains text || falseEnding.toList.isSuffixOf text.toList then some false
  else none

/-- A value as a truth value. -/
def toBool (name : Option String) : Value → Except ConfigFault Bool
  | bool b => .ok b
  | null => .ok false
  | int n => .ok (n != 0)
  | string s =>
    match boolOfText? s with
    | some b => .ok b
    | none => .error (.notBool name (string s).shown)
  | value => do throw (.notBool name (← value.shownText))

/-- A text that is not blank, without the white space at its ends. -/
def stripped? (s : String) : Option String :=
  let text := Text.strip s
  if text = "" then none else some text

/-- A value as a text, or as nothing where it is null or blank. -/
def toOptionalString (name : Option String) : Value → Except ConfigFault (Option String)
  | null => .ok none
  | string s => .ok (stripped? s)
  | int n => do return stripped? (← (int n).plainText)
  | _ => .error (.notString name)

end Value

/-- The texts of the keys of a mapping that are not among the allowed ones. -/
def unknownKeys (fields : Fields) (allowed : List String) : Except ConfigFault (List String) := do
  let keys ← fields.mapM fun pair => pair.1.plainText
  return keys.filter fun key => !allowed.contains key

/-- Refuses a mapping with a key that is not allowed. -/
def rejectUnknownKeys (fields : Fields) (allowed : List String) (label : String) :
    Except ConfigFault Unit := do
  match ← unknownKeys fields allowed with
  | [] => return ()
  | keys => throw (.unknownKeys label keys)

/-- Refuses a value that is not a mapping, or has a key that is not allowed. -/
def Value.rejectUnknownKeys (value : Value) (allowed : List String) (label : String) :
    Except ConfigFault Unit :=
  match value with
  | .map fields => Autogen.rejectUnknownKeys fields allowed label
  | _ => .error .noKeys

end Autogen
