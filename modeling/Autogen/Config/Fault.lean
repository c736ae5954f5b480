import Autogen.Config.Value
import Autogen.Text.Order
import Autogen.Text.Split

/-!
# Configuration faults

What can be wrong with a configuration value, and the message for each.

## Main definitions

* `ConfigFault` — a fault with the place it was found at.
* `ConfigFault.message` — its text.
* `ConfigFault.category` — whether a value is of the wrong type or is not an acceptable one.
* `Value.plainText`, `Value.shownText` — the texts of a value, which may be at fault.
-/

namespace Autogen

/-- What is wrong with a configuration. A field name that is missing or empty is left out of the
message. A value that is to be written as a text can be `unwritable`. -/
inductive ConfigFault where
  | unwritable
  | notStrings (field : Option String)
  | entryNotString (field : Option String)
  | notBool (field : Option String) (shown : String)
  | notString (field : Option String)
  | noKeys
  | unknownKeys (label : String) (keys : List String)
  | configListsNotMapping (field : String)
  | propertiesNotMapping (target : String)
  | projectNotMapping
  | directoriesMissing
  | unknownPolicy (name : String)
  | sourceEmpty
  | sourceNotEntry
  | sourceWithoutPath
  | definitionNotMapping (target : String)
  | sourcesNotArray (target : String)
  | configSectionNotMapping (target : String)
  | configNotMapping (target config : String)
  | configUnknownKeys (target config : String) (keys : List String)
  | projectMissing
  | importedNotMapping
  | targetsNotMapping
  | unknownMajorVersion (version : String)
deriving DecidableEq, Repr

namespace ConfigFault

/-- A field name as it opens a message. -/
def label (field : Option String) (anonymous : String) : String :=
  match field with
  | some name => if name = "" then anonymous else name ++ " "
  | none => anonymous

/-- Keys in the order in which a message lists them. -/
def listed (keys : List String) : String :=
  Text.join ", " (Text.sortedDistinct keys)

/-- The text of a fault. -/
def message : ConfigFault → String
  | unwritable => "an integer has too many digits"
  | notStrings field => label field "" ++ "must be a string or sequence of strings"
  | entryNotString field => label field "" ++ "entries must be strings"
  | notBool field shown => label field "value " ++ "is not a valid boolean: " ++ shown
  | notString field => label field "value " ++ "must be a string"
  | noKeys => "a mapping is required"
  | unknownKeys label keys => label ++ " contains unknown keys: " ++ listed keys
  | configListsNotMapping field => field ++ " must be a mapping of configuration names to lists"
  | propertiesNotMapping target => "Target '" ++ target ++ "' properties must be a mapping"
  | projectNotMapping => "[project] section must be a mapping"
  | directoriesMissing => "project.source_dir and project.binary_dir are required"
  | unknownPolicy name =>
    "Unknown generated file policy '" ++ name ++ "' (allowed: OLD, WARN, NEW, REQUIRED)"
  | sourceEmpty => "Source entries cannot be empty strings"
  | sourceNotEntry => "Sources must be specified as strings or mappings"
  | sourceWithoutPath => "Source entries must include a non-empty 'path'"
  | definitionNotMapping target => "Target '" ++ target ++ "' definition must be a mapping"
  | sourcesNotArray target =>
    "Target '" ++ target ++ "' sources must be an array of strings or tables"
  | configSectionNotMapping target =>
    "Target '" ++ target ++ "' config section must be a mapping"
  | configNotMapping target config =>
    "Target '" ++ target ++ "' config '" ++ config ++ "' must be a mapping"
  | configUnknownKeys target config keys =>
    "Target '" ++ target ++ "' config '" ++ config ++ "' contains unknown keys: " ++
      listed keys
  | projectMissing => "[project] section is required in project description"
  | importedNotMapping => "[imported_targets] must map target names to executable locations"
  | targetsNotMapping => "[targets] must be a table of target definitions"
  | unknownMajorVersion version => "Unsupported Qt major version '" ++ version ++ "'"

/-- The two kinds of faults that a message tells of, the one of a value that has no keys to be
looked at in the first place, and the one of a value that has no text. -/
inductive Category where
  | wrongType
  | badValue
  | noMapping
  | noText
deriving DecidableEq, Repr

/-- The kind of a fault. -/
def category : ConfigFault → Category
  | notStrings _ | entryNotString _ | notString _ | configListsNotMapping _
  | propertiesNotMapping _ | projectNotMapping | sourceNotEntry | definitionNotMapping _
  | sourcesNotArray _ | configSectionNotMapping _ | configNotMapping _ _ | importedNotMapping
  | targetsNotMapping => .wrongType
  | notBool _ _ | unknownKeys _ _ | directoriesMissing | unknownPolicy _ | sourceEmpty
  | sourceWithoutPath | configUnknownKeys _ _ _ | projectMissing | unknownMajorVersion _ =>
    .badValue
  | noKeys => .noMapping
  | unwritable => .noText

end ConfigFault

namespace Value

/-- The text that a value stands for. -/
def plainText (value : Value) : Except ConfigFault String :=
  if value.isWritable then .ok value.plain else .error .unwritable

/-- The text by which a message shows a value. -/
def shownText (value : Value) : Except ConfigFault String :=
  if value.isWritable then .ok value.shown else .error .unwritable

/-- A text stands for itself. -/
@[simp] theorem plainText_string (s : String) : (string s).plainText = .ok s := by
  simp [plainText, isWritable, plain]

end Value

end Autogen
