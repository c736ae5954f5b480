import Autogen.Config.Coerce
import Autogen.Path.Absolute

/-!
# Sources

The source files of targets, and how they are read from a configuration.

## Main definitions

* `FileFormat` — what a file is to the generators, told by its extension.
* `SourceFile` — a source with the flags that govern its processing.
* `SourceFile.ofValue` — a source from a configuration value.
-/

namespace Autogen

/-- What a file is to the generators. -/
inductive FileFormat where
  | code
  | header
  | ui
  | resource
  | other
deriving DecidableEq, Repr

namespace FileFormat

/-- The extensions of code files. -/
def codeExtensions : List String :=
  ["c", "C", "c++", "cc", "cpp", "cxx", "cu", "m", "M", "mm"]

/-- The extensions of header files. -/
def headerExtensions : List String :=
  ["h", "hh", "h++", "hm", "hpp", "hxx", "in", "txx"]

/-- The format that files with an extension have. -/
def ofExtension (extension : String) : FileFormat :=
  if codeExtensions.contains extension then code
  else if headerExtensions.contains extension then header
  else if extension = "ui" then ui
  else if extension = "qrc" then resource
  else other

/-- The name of a format. -/
def text : FileFormat → String
  | code => "code"
  | header => "header"
  | ui => "ui"
  | resource => "resource"
  | other => "other"

/-- Whether moc and uic look into files of this format. -/
def scannable (f : FileFormat) : Bool :=
  f = code || f = header

end FileFormat

/-- A source file of a target. The flag `autogenOutput` marks files that a plan generates. -/
structure SourceFile where
  path : String
  generated : Bool := false
  skipAutogen : Bool := false
  skipAutomoc : Bool := false
  skipAutouic : Bool := false
  skipAutorcc : Bool := false
  autogenOutput : Bool := false
  autouicOptions : List String := []
  autorccOptions : List String := []
  resourceInputs : Option (List String) := none
deriving DecidableEq, Repr, Inhabited

namespace SourceFile

variable [Environment]

/-- The names of the fields of a source entry. -/
def fieldNames : List String :=
  ["path", "generated", "skip_autogen", "skip_automoc", "skip_autouic", "skip_autorcc",
    "autouic_options", "autorcc_options", "resource_inputs"]

/-- The suffix of the file's name without its dot. -/
def extension (s : SourceFile) : String :=
  .ofList ((Path.ofString s.path).suffix.toList.drop 1)

/-- What the file is to the generators. -/
def fileFormat (s : SourceFile) : FileFormat :=
  .ofExtension s.extension

/-- A source from the fields of a mapping. -/
def ofFields (baseDir : String) (fields : Fields) : Except ConfigFault SourceFile := do
  rejectUnknownKeys fields fieldNames "Source entry"
  let rawPath := Value.field "path" fields
  let pathText ← if rawPath.isSet then rawPath.plainText else pure ""
  let pathText := Text.strip pathText
  if pathText = "" then
    .error .sourceWithoutPath
  else
    let flag key := (Value.field key fields).toBool (some key)
    let strings key := (Value.field key fields).toStrings (some key)
    let generated ← flag "generated"
    let skipAutogen ← flag "skip_autogen"
    let skipAutomoc ← flag "skip_automoc"
    let skipAutouic ← flag "skip_autouic"
    let skipAutorcc ← flag "skip_autorcc"
    let autouicOptions ← strings "autouic_options"
    let autorccOptions ← strings "autorcc_options"
    let resourceInputs ← match Value.field "resource_inputs" fields with
      | .null => pure none
      | _ => some <$> strings "resource_inputs"
    return {
      path := collapsePath pathText baseDir
      generated, skipAutogen, skipAutomoc, skipAutouic, skipAutorcc, autouicOptions,
      autorccOptions, resourceInputs }

/-- A source from a configuration value: a path, or a mapping that holds one. Relative paths are
taken from `baseDir`. -/
def ofValue (baseDir : String) : Value → Except ConfigFault SourceFile
  | .string s =>
    if Text.strip s = "" then .error .sourceEmpty
    else .ok { path := collapsePath (Text.strip s) baseDir }
  | .map fields => ofFields baseDir fields
  | _ => .error .sourceNotEntry

end SourceFile

end Autogen
