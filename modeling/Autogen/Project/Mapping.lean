import Autogen.Graph.Basic

/-!
# Projects from configurations

The build graph that a decoded project description stands for.

## Main definitions

* `TargetDefinition`, `TargetDefinition.ofValue` — a target as it is described.
* `Graph.define` — puts a described target into the graph.
* `Graph.ofMapping` — the graph of a project description.
* `ProjectFault` — the ways in which a description is refused.
-/

namespace Autogen

variable [Environment]

/-- The ways in which a project description is refused. -/
inductive ProjectFault where
  | config (fault : ConfigFault)
  | graph (fault : GraphFault)
  | unknownLibrary (target library : String)

/-- The text of a project fault. -/
def ProjectFault.message : ProjectFault → String
  | config fault => fault.message
  | graph fault => fault.message
  | unknownLibrary target library =>
    "Target '" ++ target ++ "' uses unknown object library '" ++ library ++ "'"

/-- The names of the fields of a target that are not properties. -/
def structuralNames : List String :=
  ["source_dir", "binary_dir", "sources", "utilities", "link_libraries", "include_directories",
    "compile_definitions", "config", "object_libraries"]

/-- The names of the fields of a configuration of a target. -/
def configFieldNames : List String :=
  ["include_directories", "compile_definitions"]

/-- A target as it is described: the target without its sources, and the sources in the order of
their entries. -/
structure TargetDefinition where
  target : Target
  sources : List SourceFile

namespace TargetDefinition

/-- The include directories and the compile definitions by configuration. -/
structure ConfigSection where
  includes : ConfigLists := .empty
  definitions : ConfigLists := .empty

/-- The name of a field of a configuration in messages. -/
def configLabel (name config field : String) : Option String :=
  some (name ++ ".config." ++ config ++ "." ++ field)

/-- Reads the configurations of the target `name` in turn. -/
def configSectionOfFields (name : String) :
    Fields → ConfigSection → Except ConfigFault ConfigSection
  | [], done => .ok done
  | (config, .map fields) :: rest, done => do
    let config ← config.plainText
    match ← unknownKeys fields configFieldNames with
    | [] =>
      let includes ← (Value.field "include_directories" fields).toStrings
        (configLabel name config "include_directories")
      let definitions ← (Value.field "compile_definitions" fields).toStrings
        (configLabel name config "compile_definitions")
      configSectionOfFields name rest
        { includes := done.includes.insert config includes
          definitions := done.definitions.insert config definitions }
    | keys => throw (.configUnknownKeys name config keys)
  | (config, _) :: _, _ => do throw (.configNotMapping name (← config.plainText))

/-- The configurations of the target `name` from a value. -/
def configSection (name : String) : Value → Except ConfigFault ConfigSection
  | .null => .ok {}
  | .map fields => configSectionOfFields name fields {}
  | _ => .error (.configSectionNotMapping name)

/-- The source entries of the target `name`; a missing field is an empty list. -/
def sourceEntries (name : String) (fields : Fields) : Except ConfigFault (List Value) :=
  match Value.field? "sources" fields with
  | none => .ok []
  | some (.list entries) => .ok entries
  | some _ => .error (.sourcesNotArray name)

/-- The directory that a field names, taken from the project's one; that one if it is not given. -/
def directory (field base : String) (fields : Fields) : Except ConfigFault String := do
  return collapsePath (← ProjectSettings.plainOr "." (Value.field field fields)) base

/-- The fields of a target that are its properties. -/
def propertyFields (fields : Fields) : Fields :=
  fields.filter fun pair =>
    match pair.1 with
    | .string key => !structuralNames.contains key
    | _ => true

/-- The target `name` from the fields of its description. -/
def ofFields (settings : ProjectSettings) (name : String) (fields : Fields) :
    Except ConfigFault TargetDefinition := do
  let sourceDir ← directory "source_dir" settings.sourceDir fields
  let binaryDir ← directory "binary_dir" settings.binaryDir fields
  let strings key := (Value.field key fields).toStrings (some (name ++ "." ++ key))
  let entries ← sourceEntries name fields
  let sources ← entries.mapM (SourceFile.ofValue sourceDir)
  let includes ← strings "include_directories"
  let config ← configSection name (Value.field "config" fields)
  let properties ← TargetProperties.ofFields name (propertyFields fields)
  let utilities ← strings "utilities"
  let linkLibraries ← strings "link_libraries"
  let compileDefinitions ← strings "compile_definitions"
  let target := {
    name, sourceDir, binaryDir, properties, linkLibraries, compileDefinitions
    utilities := .ofList utilities
    includeDirectories := includes.map (collapsePath · sourceDir)
    configIncludeDirectories := config.includes.mapValues (·.map (collapsePath · sourceDir))
    configCompileDefinitions := config.definitions }
  return { target, sources }

/-- The target `name` from its description. -/
def ofValue (settings : ProjectSettings) (name : String) :
    Value → Except ConfigFault TargetDefinition
  | .map fields => ofFields settings name fields
  | _ => .error (.definitionNotMapping name)

end TargetDefinition

namespace Graph

/-- Puts a target into the store with its sources; of several with the same path the first one
counts. The target is not registered yet. -/
def define (g : Graph) (d : TargetDefinition) : TargetId × Graph :=
  let (id, store) := g.store.newTarget d.target
  (id, { g with store := store.addNewSources id d.sources })

/-- Describes a target and registers it. -/
def defineTarget (g : Graph) (name : String) (value : Value) :
    Except ProjectFault (TargetId × Graph) := do
  let definition ← (TargetDefinition.ofValue g.settings name value).mapError .config
  let (id, g) := g.define definition
  let g ← (g.addTarget id).mapError .graph
  return (id, g)

/-- Registers the imported targets of a project in turn. -/
def importTargets : Fields → Graph → Except ProjectFault Graph
  | [], g => .ok g
  | (name, location) :: rest, g => do
    let name ← name.plainText.mapError .config
    let location ← (ProjectSettings.plainOr "" location).mapError .config
    importTargets rest (← (g.addImported ⟨name, location⟩).mapError .graph)

/-- Registers the targets of a project in turn. -/
def defineTargets : Fields → Graph → Except ProjectFault Graph
  | [], g => .ok g
  | (name, value) :: rest, g => do
    let (_, g) ← g.defineTarget (← name.plainText.mapError .config) value
    defineTargets rest g

/-- Links object libraries to a target by their names in turn. -/
def linkNamed (t : TargetId) : List String → Graph → Except ProjectFault Graph
  | [], g => .ok g
  | name :: rest, g =>
    match g.targets.get? name with
    | none => .error (.unknownLibrary (g.target t).name name)
    | some library => do linkNamed t rest (← (g.linkLibrary t library).mapError .graph)

/-- The fields of a value, none if it is not a mapping. -/
def fieldsOf : Value → Fields
  | .map fields => fields
  | _ => []

/-- Links the object libraries of the targets of a project in turn. -/
def linkTargets : Fields → Graph → Except ProjectFault Graph
  | [], g => .ok g
  | (name, value) :: rest, g => do
    let t ← (g.findTarget (← name.plainText.mapError .config)).mapError .graph
    let libraries ← ((Value.field "object_libraries" (fieldsOf value)).toStrings
      (some ((g.target t).name ++ ".object_libraries"))).mapError .config
    linkTargets rest (← linkNamed t libraries g)

/-- The fields of a section of a project description; a missing one has none. -/
def sectionFields (name : String) (fault : ConfigFault) (fields : Fields) :
    Except ProjectFault Fields :=
  match Value.field? name fields with
  | none => .ok []
  | some (.map inner) => .ok inner
  | some _ => .error (.config fault)

/-- The graph of a project description. -/
def ofMapping (fields : Fields) : Except ProjectFault Graph := do
  let settings ← match Value.field? "project" fields with
    | some (.map project) => (ProjectSettings.ofFields project).mapError .config
    | _ => .error (.config .projectMissing)
  let imported ← sectionFields "imported_targets" .importedNotMapping fields
  let g ← importTargets imported (ofSettings settings)
  let targets ← sectionFields "targets" .targetsNotMapping fields
  let g ← defineTargets targets g
  linkTargets targets g

/-- The graph of a project description that may not even be a mapping. -/
def ofValue : Value → Except ProjectFault Graph
  | .map fields => ofMapping fields
  | _ => .error (.config .noKeys)

end Graph

end Autogen
