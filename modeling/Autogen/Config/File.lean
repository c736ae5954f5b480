import Autogen.Config.Json
import Autogen.Config.Toml.Document
import Autogen.Config.Yaml.Draft
import Autogen.FileSystem.Lookup
import Autogen.Text.Case
import Autogen.Text.Order

/-!
# Configuration files

Loading of a configuration from a file, whose format shows in the suffix of its name.

## Main definitions

* `ConfigFormat` — the formats, and `ConfigFormat.ofSuffix?` for the one of a file.
* `ConfigFormat.decode` — the value in the bytes of a file.
* `loadConfig` — the fields in a file.
* `LoadFault` — the ways in which that fails.
-/

namespace Autogen

variable [Environment]

/-- The formats of configuration files. -/
inductive ConfigFormat where
  | toml
  | json
  | yaml
deriving DecidableEq, Repr

/-- The suffixes of configuration files with their formats. -/
def configSuffixes : List (String × ConfigFormat) :=
  [(".toml", .toml), (".json", .json), (".yaml", .yaml), (".yml", .yaml)]

/-- Why a configuration could not be loaded from a file. -/
inductive LoadFault where
  | unsupported (suffix : String)
  | file (fault : FileSystem.Fault)
  | undecodable
  | malformed (format : ConfigFormat)
  | tooDeep
  | value (fault : ValueFault)
  | notMapping (path : Path)
deriving DecidableEq, Repr

namespace LoadFault

/-- The text of a load fault. -/
def message : LoadFault → String
  | unsupported suffix =>
    "Unsupported configuration file extension: " ++ suffix ++ ". Supported: " ++
      Text.join ", " (Text.sortedDistinct (configSuffixes.map (·.1)))
  | file fault => fault.message
  | undecodable => "the file is not UTF-8 text"
  | malformed _ => "the file is not in the format of its suffix"
  | tooDeep => "the values in the file are too deep inside one another"
  | value fault => fault.message
  | notMapping path =>
    "Configuration file '" ++ path.text ++ "' must contain a mapping at the root"

/-- The fault of a file whose content could not be decoded. -/
def ofDecode (format : ConfigFormat) : DecodeFault → LoadFault
  | .malformed | .incomplete => malformed format
  | .undecodable => undecodable
  | .tooDeep => tooDeep
  | .value fault => value fault

end LoadFault

namespace ConfigFormat

/-- The format of the files with a suffix, in whatever letter case. -/
def ofSuffix? (suffix : String) : Option ConfigFormat :=
  configSuffixes.lookup (Text.lower suffix)

/-- The value in the bytes of a file. TOML has a rule of its own for line ends; elsewhere they are
unified. A YAML text is read as far as it can be decoded. -/
def decode (format : ConfigFormat) (bytes : ByteArray) : Except LoadFault Value :=
  let whole (parse : List Char → Except DecodeFault Value) :=
    match Text.charsOf? bytes with
    | some text => parse text
    | none => .error .undecodable
  let value := match format with
    | toml => whole Toml.parse
    | json => whole fun text => Json.parse (Text.unifyLineEnds text)
    | yaml => Yaml.parse (.ofBytes bytes)
  value.mapError (.ofDecode format)

end ConfigFormat

/-- The fields in the configuration file at a path. A file whose suffix is not that of a format is
not looked at. -/
def loadConfig (fs : FileSystem) (path : Path) : Except LoadFault Fields :=
  match ConfigFormat.ofSuffix? path.suffix with
  | none => .error (.unsupported (Text.lower path.suffix))
  | some format => do
    let content ← (fs.read path).mapError .file
    match ← format.decode content with
    | .map fields => return fields
    | _ => .error (.notMapping path)

end Autogen
