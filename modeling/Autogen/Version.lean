import Autogen.Diagnostics
import Autogen.Graph.Basic
import Autogen.Text.Digit

/-!
# Qt versions

The Qt version that a target is built against, from its own properties, the targets it links and
the settings of the project.

## Main definitions

* `QtMajor`, `QtMajor.ofValue` — the major versions whose tools are known.
* `Graph.majorVersion`, `Graph.minorVersion` — the version of a target.
* `versionAtLeast` — the comparison of a version with a required one.
-/

namespace Autogen

/-- The major versions of Qt whose tools are known. -/
inductive QtMajor where
  | qt4
  | qt5
deriving DecidableEq, Repr

namespace QtMajor

/-- The text of a version. -/
def text : QtMajor → String
  | qt4 => "4"
  | qt5 => "5"

/-- The version that a value names. -/
def ofValue (value : Value) : Except ConfigFault QtMajor := do
  let version ← value.plainText
  match Text.strip version with
  | "4" => return qt4
  | "5" => return qt5
  | _ => throw (.unknownMajorVersion version)

/-- The version that a text names. -/
def ofText? (text : String) : Option QtMajor :=
  (ofValue (.string text)).toOption

/-- The name of the imported target that provides a tool. -/
def importTarget (v : QtMajor) (tool : String) : String :=
  "Qt" ++ v.text ++ "::" ++ tool

/-- Whether the tools of the version know options with two dashes. -/
def stripsDoubleDash (v : QtMajor) : Bool :=
  v = qt5

end QtMajor

/-- A text that is given and not empty. -/
def given? (value : Option String) : Option String :=
  value.filter (· ≠ "")

theorem given?_eq_some {value : Option String} {text : String} :
    given? value = some text ↔ value = some text ∧ text ≠ "" := by
  rw [given?, Option.filter_eq_some_iff, decide_eq_true_iff]

/-- The values of an interface property in the targets that a target links, each with the first
library that has it, in the order of the links. -/
def Graph.interfaceValues (g : Graph) (t : Target) (read : TargetProperties → Option String) :
    OrderedMap String String :=
  t.linkLibraries.foldl (fun values library =>
    match (g.targets.get? library).bind fun id => given? (read (g.target id).properties) with
    | some value => if values.contains value then values else values.insert value library
    | none => values) .empty

/-- The message about libraries that do not agree on a property. -/
def conflictMessage (target property : String) (values : OrderedMap String String) : String :=
  "Property " ++ property ++ " in the link interface of target \"" ++ target ++
    "\" has conflicting values: " ++
    Text.join ", " (values.toList.map fun pair => pair.2 ++ "=" ++ pair.1)

/-- The first value that the linked targets give to a property; a conflict is recorded. -/
def Graph.propagated (g : Graph) (t : Target) (read : TargetProperties → Option String)
    (property : String) (ds : Diagnostics) : Option String × Diagnostics :=
  let values := g.interfaceValues t read
  (values.keys.head?,
    if 1 < values.keys.length then ds.error (conflictMessage t.name property values) else ds)

/-- The value of a version property: the explicit one, else that of the linked targets, else the
project's. -/
def Graph.versionOf (g : Graph) (t : Target) (explicit : Option String)
    (read : TargetProperties → Option String) (property : String) (ofProject : Option String)
    (ds : Diagnostics) : String × Diagnostics :=
  match given? explicit with
  | some version => (version, ds)
  | none =>
    let (found, ds) := g.propagated t read property ds
    ((found.or ofProject).getD "", ds)

/-- The major version of a target. -/
def Graph.majorVersion (g : Graph) (t : Target) (ds : Diagnostics) : String × Diagnostics :=
  g.versionOf t t.properties.qtMajorVersion (·.interfaceQtMajorVersion) "QT_MAJOR_VERSION"
    ((given? g.settings.qtVersionMajor).or (given? g.settings.qt5coreVersionMajor)) ds

/-- The minor version of a target whose major version is `major`. -/
def Graph.minorVersion (g : Graph) (t : Target) (major : String) (ds : Diagnostics) :
    String × Diagnostics :=
  let ofCore := if major = "5" then given? g.settings.qt5coreVersionMinor else none
  g.versionOf t t.properties.qtMinorVersion (·.interfaceQtMinorVersion) "QT_MINOR_VERSION"
    (ofCore.or (given? g.settings.qtVersionMinor)) ds

/-- A text of digits that is no number in base ten, or is too long to be taken as one. -/
structure DigitFault where
  text : String
deriving DecidableEq, Repr

/-- The text of a digit fault. -/
def DigitFault.message (f : DigitFault) : String :=
  "not a decimal number: " ++ Text.quoted f.text

/-- The number that a text of digits writes. -/
def numberOfDigits (text : String) : Except DigitFault Nat :=
  if Text.digitLimit < text.toList.length then .error ⟨text⟩
  else
    match Text.natOfDecimals? text.toList with
    | some n => .ok n
    | none => .error ⟨text⟩

/-- Whether a version is at least a required one; a version that is not written in digits never
is. -/
def versionAtLeast (major minor : String) (wantMajor wantMinor : Int) : Except DigitFault Bool :=
  if !(Text.allDigits major && Text.allDigits minor) then .ok false
  else do
    let m ← numberOfDigits major
    let n ← numberOfDigits minor
    return decide ((m : Int) > wantMajor ∨ ((m : Int) = wantMajor ∧ (n : Int) ≥ wantMinor))

end Autogen
