import Autogen.Dependencies
import Autogen.Layout
import Autogen.Options
import Autogen.Plan.Basic

/-!
# Making a plan

How the plan of a target is made from the build graph and the file system. Making it changes the
graph a little: the directory of generated headers is put in front of the target's include
directories, resource files are noted as calling for a new configuration, and source lists are
remembered and forgotten. What was changed stays when the plan fails.

## Main definitions

* `PlanFault` — the ways in which planning fails.
* `Graph.plan` — the plan of a target, the graph it leaves and the diagnostics.
-/

namespace Autogen

variable [Environment]

/-- The ways in which planning fails. -/
inductive PlanFault where
  | noGenerators (target : String)
  | path (fault : PathFault)
  | version (fault : DigitFault)
deriving DecidableEq, Repr

/-- The text of a planning fault. -/
def PlanFault.message : PlanFault → String
  | noGenerators target => "Target '" ++ target ++ "' has no automatic generators enabled"
  | path fault => fault.message
  | version fault => fault.message

/-- What planning leaves behind: the graph, the diagnostics, and the plan or the fault. -/
structure PlanOutcome where
  graph : Graph
  diagnostics : Diagnostics
  result : Except PlanFault Plan

/-- The directory of the generated headers of a target, if it has any. -/
def Target.includeDir? (t : Target) (settings : ProjectSettings) : Option String :=
  if t.properties.automoc || t.properties.autouic then
    some (t.buildDir ++ "/include" ++ if settings.multiConfig then "_$<CONFIG>" else "")
  else none

/-- Puts the directory of generated headers in front of the include directories of a target. -/
def Target.withIncludeDir (t : Target) (directory : Option String) : Target :=
  match given? directory with
  | some dir => t.addIncludeDirectory dir true
  | none => t

/-- The classifier for a target. -/
def Target.classifier (t : Target) (settings : ProjectSettings) : Classifier where
  moc := t.properties.automoc
  uic := t.properties.autouic
  rcc := t.properties.autorcc
  policy := settings.generatedFilePolicy

/-- The binding of a tool if it is enabled. -/
def Graph.bindEnabled (g : Graph) (t : Target) (enabled : Bool) (tool : Tool) (version : String) :
    Option ToolBinding :=
  if enabled then some (g.bindTool t.name tool version) else none

/-- The messages about enabled tools that were not found. -/
def bindingFaults (bindings : List (Option ToolBinding)) : List String :=
  bindings.filterMap fun binding => (binding.bind (·.fault)).map (·.message)

/-- The settings of moc for a target. The command that prints the compiler's own definitions is
of use from Qt 5.8 on. -/
def Graph.mocSettings (g : Graph) (t : Target) (binding : ToolBinding) (major minor : String) :
    Except DigitFault MocSettings := do
  let hasPredefs ← versionAtLeast major minor 5 8
  return {
    binding
    includes := t.includesDiff g.settings.buildType g.configurations
    definitions := t.definitionsDiff g.settings.buildType g.configurations
    options := t.properties.automocMocOptions
    relaxedMode := g.settings.automocRelaxedMode
    macroNames := t.properties.automocMacroNames
    dependFilters := t.properties.automocDependFilters
    predefsCommand := if hasPredefs then g.settings.compilerPredefinesCommand else [] }

/-- The settings of uic for a target. -/
def Graph.uicSettings (g : Graph) (t : Target) (binding : ToolBinding) (c : Classification) :
    UicSettings where
  binding
  targetOptions := t.uicOptionsDiff g.settings.buildType g.configurations
  searchPaths := t.properties.autouicSearchPaths.map fun path => collapsePath path t.sourceDir
  optionFiles := c.uiOptionFiles

/-- The options with which a resource file is packed. -/
def rccOptions (stripDoubleDash : Bool) (target file : List String) : List String :=
  if file.isEmpty then target else Options.merge stripDoubleDash target file

/-- The settings of rcc for a target. -/
def Graph.rccSettings (g : Graph) (t : Target) (binding : ToolBinding) (c : Classification)
    (inputs : OrderedMap String (List String)) (major : String) : RccSettings where
  binding
  entries := c.resources.map fun resource => {
    path := resource.path
    generated := resource.generated
    output := resourceOutput t.buildDir resource.path (g.checksumRoots t)
    inputs := (inputs.get? resource.path).getD []
    options :=
      rccOptions (((QtMajor.ofText? major).map (·.stripsDoubleDash)).getD false)
        t.properties.autorccOptions resource.options }

/-- The files that the generators write for a target. -/
def generatedFiles (t : Target) (rcc : Option RccSettings) : List GeneratedFile :=
  (if t.properties.automoc then [⟨t.buildDir ++ "/mocs_compilation.cpp", .moc⟩] else []) ++
    match rcc with
    | some settings => settings.entries.map fun entry => ⟨entry.output, .rcc⟩
    | none => []

/-- The endings that tell the files of configurations apart. -/
def Graph.configSuffixes (g : Graph) : OrderedMap String String :=
  if g.settings.multiConfig then
    .ofList ((g.configurations.filter (· ≠ "")).map fun config => (config, "_" ++ config))
  else .empty

/-- The sources that are planned with a target: those of its merged list whose paths it lists
itself. The others are planned with the libraries they come from. -/
def Graph.plannedSources (g : Graph) (t : TargetId) : List SourceFile × Graph :=
  let own := (g.target t).sources.map g.store.path
  let (merged, g) := g.commonSources t
  ((merged.filter fun id => g.store.path id ∈ own).map g.store.source, g)

/-- The request for the dependencies of a target. -/
def Target.dependencyRequest (t : Target) (binding : Option ToolBinding)
    (lister : ResourceLister) : DependencyRequest where
  target := t
  exclude := [t.autogenName]
  binding
  lister

/-- What is known about a target once its sources are classified. -/
structure Graph.Findings where
  major : String
  minor : String
  classification : Classification
  moc : Option MocSettings
  uic : Option UicSettings
  rccBinding : Option ToolBinding

/-- The plan of a target for which everything is known. -/
def Graph.assemble (g : Graph) (t : Target) (f : Graph.Findings) (d : Dependencies) : Plan :=
  let rcc := f.rccBinding.map fun binding =>
    g.rccSettings t binding f.classification d.resourceInputs f.major
  { targetName := t.name
    autogenTargetName := t.autogenName
    buildDir := t.buildDir
    filesDir := t.filesDir g.settings
    infoFile := t.infoFile g.settings
    workingDirectory := t.binaryDir
    includeDirectory := t.includeDir? g.settings
    qtVersionMajor := f.major
    qtVersionMinor := f.minor
    multiConfig := g.settings.multiConfig
    baselineConfig := g.settings.buildType
    configurations := g.configurations
    classification := f.classification
    moc := f.moc
    uic := f.uic
    rcc
    dependencies := d.depends.toList
    generatedFiles := generatedFiles t rcc
    configSuffixes := g.configSuffixes }

/-- Classifies the sources of a target and finds out what the enabled generators need. -/
def Graph.examine (g : Graph) (fs : FileSystem) (t : Target) (sources : List SourceFile)
    (ds : Diagnostics) : Diagnostics × Except PlanFault Graph.Findings :=
  let (major, ds) := g.majorVersion t ds
  let (minor, ds) := g.minorVersion t major ds
  match (t.classifier g.settings).classify fs sources with
  | .error fault => (ds, .error (.path fault))
  | .ok (classification, warnings) =>
    let ds := ds.warnings warnings
    let mocBinding := g.bindEnabled t t.properties.automoc .moc major
    let uicBinding := g.bindEnabled t t.properties.autouic .uic major
    let rccBinding := g.bindEnabled t t.properties.autorcc .rcc major
    let ds := ds.errors (bindingFaults [mocBinding, uicBinding, rccBinding])
    match mocBinding.mapM fun binding => g.mocSettings t binding major minor with
    | .error fault => (ds, .error (.version fault))
    | .ok moc =>
      let uic := uicBinding.map fun binding => g.uicSettings t binding classification
      (ds, .ok { major, minor, classification, moc, uic, rccBinding })

/-- The plan of a target for which a generator is enabled and whose directory of generated headers
is among its include directories. -/
def Graph.planRegistered (g : Graph) (fs : FileSystem) (lister : ResourceLister) (id : TargetId)
    (ds : Diagnostics) : PlanOutcome :=
  let t := g.target id
  let (sources, g) := g.plannedSources id
  match g.examine fs t sources ds with
  | (ds, .error fault) => ⟨g, ds, .error fault⟩
  | (ds, .ok findings) =>
    let request := t.dependencyRequest findings.rccBinding lister
    let collected := g.collectDependencies fs request findings.classification ds
    match collected.result with
    | .error fault => ⟨collected.graph, collected.diagnostics, .error (.path fault)⟩
    | .ok found =>
      let g := collected.graph.clearSources id
      let packed := findings.classification.resources.map (·.path)
      match requireChecksums packed (g.checksumRoots t) with
      | .error fault => ⟨g, collected.diagnostics, .error (.path (.spelling fault))⟩
      | .ok () => ⟨g, collected.diagnostics, .ok (g.assemble t findings found)⟩

/-- The plan of a target. -/
def Graph.plan (g : Graph) (fs : FileSystem) (lister : ResourceLister) (id : TargetId) :
    PlanOutcome :=
  let t := g.target id
  let ds : Diagnostics := { target := some t.name }
  if t.properties.anyGeneratorEnabled then
    (g.modifyTarget id (·.withIncludeDir (t.includeDir? g.settings))).planRegistered fs lister id ds
  else ⟨g, ds, .error (.noGenerators t.name)⟩

end Autogen
