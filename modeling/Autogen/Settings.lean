import Autogen.OrderedMap
import Autogen.Policy

/-!
# Settings

The properties of a target and the settings of a project that the planning looks at, and how they
are read from a configuration.

## Main definitions

* `TargetProperties`, `TargetProperties.ofValue` — the properties of one target.
* `ProjectSettings`, `ProjectSettings.ofValue` — the settings shared by all targets.
-/

namespace Autogen

/-- Lists of texts by the name of a configuration. -/
abbrev ConfigLists := OrderedMap String (List String)

/-- The properties of a target that concern automatic code generation. The defaults are those of
a target with no property set, which has no generator enabled. -/
structure TargetProperties where
  automoc : Bool := false
  autouic : Bool := false
  autorcc : Bool := false
  automocMocOptions : List String := []
  automocMacroNames : List String := []
  automocDependFilters : List String := []
  autouicOptions : List String := []
  autouicConfigOptions : ConfigLists := .empty
  autouicSearchPaths : List String := []
  autorccOptions : List String := []
  autogenTargetDepends : List String := []
  autogenBuildDir : Option String := none
  folder : Option String := none
  qtMajorVersion : Option String := none
  qtMinorVersion : Option String := none
  interfaceQtMajorVersion : Option String := none
  interfaceQtMinorVersion : Option String := none
deriving DecidableEq

namespace TargetProperties

/-- The names of the properties. -/
def fieldNames : List String :=
  ["automoc", "autouic", "autorcc", "automoc_moc_options", "automoc_macro_names",
    "automoc_depend_filters", "autouic_options", "autouic_config_options", "autouic_search_paths",
    "autorcc_options", "autogen_target_depends", "autogen_build_dir", "folder",
    "qt_major_version", "qt_minor_version", "interface_qt_major_version",
    "interface_qt_minor_version"]

/-- Whether any generator is enabled. -/
def anyGeneratorEnabled (p : TargetProperties) : Bool :=
  p.automoc || p.autouic || p.autorcc

/-- The lists of the pairs of a mapping from configuration names, read in turn. -/
def configListsOfFields (name : String) : Fields → ConfigLists → Except ConfigFault ConfigLists
  | [], done => .ok done
  | (config, items) :: rest, done => do
    let config ← config.plainText
    let list ← items.toStrings (some (name ++ "." ++ config))
    configListsOfFields name rest (done.insert config list)

/-- A value as lists of texts by configuration. -/
def configLists (name : String) : Value → Except ConfigFault ConfigLists
  | .null => .ok .empty
  | .map fields => configListsOfFields name fields .empty
  | _ => .error (.configListsNotMapping name)

/-- The properties of the target `name` from the fields of a mapping. -/
def ofFields (name : String) (fields : Fields) : Except ConfigFault TargetProperties := do
  rejectUnknownKeys fields fieldNames ("Target '" ++ name ++ "'")
  let labelled key := some (name ++ "." ++ key)
  let flag key := (Value.field key fields).toBool (labelled key)
  let strings key := (Value.field key fields).toStrings (labelled key)
  let optional key := (Value.field key fields).toOptionalString (labelled key)
  let automoc ← flag "automoc"
  let autouic ← flag "autouic"
  let autorcc ← flag "autorcc"
  let automocMocOptions ← strings "automoc_moc_options"
  let automocMacroNames ← strings "automoc_macro_names"
  let automocDependFilters ← strings "automoc_depend_filters"
  let autouicOptions ← strings "autouic_options"
  let autouicConfigOptions ← configLists (name ++ ".autouic_config_options")
    (Value.field "autouic_config_options" fields)
  let autouicSearchPaths ← strings "autouic_search_paths"
  let autorccOptions ← strings "autorcc_options"
  let autogenTargetDepends ← strings "autogen_target_depends"
  let autogenBuildDir ← optional "autogen_build_dir"
  let folder ← optional "folder"
  let qtMajorVersion ← optional "qt_major_version"
  let qtMinorVersion ← optional "qt_minor_version"
  let interfaceQtMajorVersion ← optional "interface_qt_major_version"
  let interfaceQtMinorVersion ← optional "interface_qt_minor_version"
  return {
    automoc, autouic, autorcc, automocMocOptions, automocMacroNames, automocDependFilters,
    autouicOptions, autouicConfigOptions, autouicSearchPaths, autorccOptions,
    autogenTargetDepends, autogenBuildDir, folder, qtMajorVersion, qtMinorVersion,
    interfaceQtMajorVersion, interfaceQtMinorVersion }

/-- The properties of the target `name` from a configuration value. -/
def ofValue (name : String) : Value → Except ConfigFault TargetProperties
  | .map fields => ofFields name fields
  | _ => .error (.propertiesNotMapping name)

end TargetProperties

/-- The settings that all targets of a project share. -/
structure ProjectSettings where
  sourceDir : String
  binaryDir : String
  buildType : String := ""
  configurations : List String := []
  multiConfig : Bool := false
  generatedFilePolicy : GeneratedFilePolicy := .warn
  qtVersionMajor : Option String := none
  qtVersionMinor : Option String := none
  qt5coreVersionMajor : Option String := none
  qt5coreVersionMinor : Option String := none
  automocRelaxedMode : Bool := false
  compilerPredefinesCommand : List String := []
  automocSourceGroup : Option String := none
  autorccSourceGroup : Option String := none
  autogenSourceGroup : Option String := none
  automocTargetsFolder : Option String := none
  autogenTargetsFolder : Option String := none
  sourceGroupDelimiter : String := "\\"
  cmakeCommand : String := "cmake"
  cmakeFilesDirectory : String := "CMakeFiles"
deriving DecidableEq

namespace ProjectSettings

/-- The names of the settings. -/
def fieldNames : List String :=
  ["source_dir", "binary_dir", "build_type", "configurations", "multi_config",
    "generated_file_policy", "qt_version_major", "qt_version_minor", "qt5core_version_major",
    "qt5core_version_minor", "automoc_relaxed_mode", "cxx_compiler_predefines_command",
    "automoc_source_group", "autorcc_source_group", "autogen_source_group",
    "automoc_targets_folder", "autogen_targets_folder", "source_group_delimiter",
    "cmake_command", "cmake_files_directory"]

/-- A text that a setting has unless its value is given. -/
def plainOr (default : String) (value : Value) : Except ConfigFault String :=
  if value.isSet then value.plainText else .ok default

/-- The settings of the project from the fields of a mapping. -/
def ofFields (fields : Fields) : Except ConfigFault ProjectSettings := do
  rejectUnknownKeys fields fieldNames "[project] section"
  let labelled key := some ("project." ++ key)
  let flag key := (Value.field key fields).toBool (labelled key)
  let strings key := (Value.field key fields).toStrings (labelled key)
  let optional key := (Value.field key fields).toOptionalString (labelled key)
  match ← optional "source_dir", ← optional "binary_dir" with
  | some sourceDir, some binaryDir =>
    let generatedFilePolicy ← match Value.field "generated_file_policy" fields with
      | .null => pure .warn
      | value => GeneratedFilePolicy.ofValue value
    let buildType ← plainOr "" (Value.field "build_type" fields)
    let configurations ← strings "configurations"
    let multiConfig ← flag "multi_config"
    let qtVersionMajor ← optional "qt_version_major"
    let qtVersionMinor ← optional "qt_version_minor"
    let qt5coreVersionMajor ← optional "qt5core_version_major"
    let qt5coreVersionMinor ← optional "qt5core_version_minor"
    let automocRelaxedMode ← flag "automoc_relaxed_mode"
    let compilerPredefinesCommand ← strings "cxx_compiler_predefines_command"
    let automocSourceGroup ← optional "automoc_source_group"
    let autorccSourceGroup ← optional "autorcc_source_group"
    let autogenSourceGroup ← optional "autogen_source_group"
    let automocTargetsFolder ← optional "automoc_targets_folder"
    let autogenTargetsFolder ← optional "autogen_targets_folder"
    let sourceGroupDelimiter ← plainOr "\\" (Value.field "source_group_delimiter" fields)
    let cmakeCommand ← optional "cmake_command"
    let cmakeFilesDirectory ← optional "cmake_files_directory"
    return {
      sourceDir, binaryDir, buildType, configurations, multiConfig, generatedFilePolicy,
      qtVersionMajor, qtVersionMinor, qt5coreVersionMajor, qt5coreVersionMinor,
      automocRelaxedMode, compilerPredefinesCommand, automocSourceGroup, autorccSourceGroup,
      autogenSourceGroup, automocTargetsFolder, autogenTargetsFolder, sourceGroupDelimiter
      cmakeCommand := cmakeCommand.getD "cmake"
      cmakeFilesDirectory := cmakeFilesDirectory.getD "CMakeFiles" }
  | _, _ => .error .directoriesMissing

/-- The settings of the project from a configuration value. -/
def ofValue : Value → Except ConfigFault ProjectSettings
  | .map fields => ofFields fields
  | _ => .error .projectNotMapping

end ProjectSettings

end Autogen
