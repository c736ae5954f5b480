import Autogen.Graph.Store

/-!
# The build graph

The targets of a project by name, together with what planning them adds to the build: utility
steps, files to clean, files whose change calls for a new configuration, and source groups.

## Main definitions

* `Graph` — the build graph.
* `Graph.addTarget`, `Graph.addImported`, `Graph.addUtilityStep` — registration under a name.
* `Graph.ofTargets` — the graph of targets that exist already.
* `Graph.findTarget`, `Graph.isKnown` — look-up by name.
* `Graph.sourceFor` — the source entry that stands for a path.
* `GraphFault` — the ways in which these fail.
-/

namespace Autogen

/-- A target that is built elsewhere, with the location of what it provides. -/
structure ImportedTarget where
  name : String
  location : String := ""
deriving DecidableEq, Repr

/-- A step of the build that runs commands. -/
structure UtilityStep where
  name : String
  workingDirectory : String
  byproducts : List String := []
  depends : List String := []
  commandLines : List (List String) := []
  comment : String := ""
  folder : Option String := none
deriving DecidableEq, Repr

/-- The ways in which an operation on the graph fails. -/
inductive GraphFault where
  | alreadyDefined (name : String)
  | unknownTarget (name : String) (available : List String)
  | libraryCycle (cycle : LibraryCycle)
deriving DecidableEq, Repr

/-- The text of a fault. -/
def GraphFault.message : GraphFault → String
  | alreadyDefined name => "Target '" ++ name ++ "' is already defined"
  | unknownTarget name available =>
    "Target '" ++ name ++ "' not found. Available targets: " ++
      if available.isEmpty then "<none>" else Text.join ", " (Text.sorted available)
  | libraryCycle cycle => cycle.message

/-- The build graph. The names in `targets`, `importedTargets` and `utilitySteps` are those under
which something can be depended on; `sourceIndex` keeps the entries that stand for paths. -/
structure Graph where
  settings : ProjectSettings
  store : Store := .empty
  targets : OrderedMap String TargetId := .empty
  importedTargets : OrderedMap String ImportedTarget := .empty
  utilitySteps : OrderedMap String UtilityStep := .empty
  cleanFiles : OrderedSet String := .empty
  reconfigureFiles : OrderedSet String := .empty
  sourceGroups : OrderedMap (List String) (OrderedSet String) := .empty
  sourceIndex : OrderedMap String SourceId := .empty
deriving DecidableEq

namespace Graph

/-- The graph of a project before anything is added. -/
def ofSettings (settings : ProjectSettings) : Graph :=
  { settings }

/-- The target of an identity. -/
def target (g : Graph) (t : TargetId) : Target :=
  g.store.target t

/-- The graph with one target changed. -/
def modifyTarget (g : Graph) (t : TargetId) (f : Target → Target) : Graph :=
  { g with store := g.store.modifyTarget t f }

/-- The graph with one source entry changed. -/
def modifySource (g : Graph) (id : SourceId) (f : SourceFile → SourceFile) : Graph :=
  { g with store := g.store.modifySource id f }

/-- Whether a name belongs to a target or an imported target. -/
def isTaken (g : Graph) (name : String) : Bool :=
  g.targets.contains name || g.importedTargets.contains name

/-- Registers a target of the store under its name. -/
def addTarget (g : Graph) (t : TargetId) : Except GraphFault Graph :=
  let name := (g.target t).name
  if g.isTaken name then .error (.alreadyDefined name)
  else .ok { g with targets := g.targets.insert name t }

/-- Registers an imported target. -/
def addImported (g : Graph) (imported : ImportedTarget) : Except GraphFault Graph :=
  if g.isTaken imported.name then .error (.alreadyDefined imported.name)
  else .ok { g with importedTargets := g.importedTargets.insert imported.name imported }

/-- Registers a utility step; a step of the same name is replaced. -/
def addUtilityStep (g : Graph) (step : UtilityStep) : Except GraphFault Graph :=
  if g.isTaken step.name then .error (.alreadyDefined step.name)
  else .ok { g with utilitySteps := g.utilitySteps.insert step.name step }

/-- The graph of some targets of a store, which are registered in turn, and after them some imported
targets. -/
def ofTargets (settings : ProjectSettings) (store : Store) (targets : List TargetId)
    (imported : List ImportedTarget) : Except GraphFault Graph := do
  let g ← targets.foldlM addTarget { settings, store }
  imported.foldlM addImported g

/-- The target of a name. -/
def findTarget (g : Graph) (name : String) : Except GraphFault TargetId :=
  match g.targets.get? name with
  | some t => .ok t
  | none => .error (.unknownTarget name g.targets.keys)

/-- The imported target of a name. -/
def findImported? (g : Graph) (name : String) : Option ImportedTarget :=
  g.importedTargets.get? name

/-- Whether a name can be depended on. -/
def isKnown (g : Graph) (name : String) : Bool :=
  g.isTaken name || g.utilitySteps.contains name

/-- The identities of the registered targets in the order of registration. -/
def targetIds (g : Graph) : List TargetId :=
  g.targets.values

/-- The declared configurations; without any there is a nameless one. -/
def configurations (g : Graph) : List String :=
  if g.settings.configurations.isEmpty then [""] else g.settings.configurations

/-- The endings of file names that are particular to a configuration. -/
def configurationSuffixes (g : Graph) : List String :=
  if g.settings.multiConfig && !g.settings.configurations.isEmpty then
    g.settings.configurations.map ("_" ++ ·)
  else [""]

/-- Compiles the sources of one target into another as well. -/
def linkLibrary (g : Graph) (t library : TargetId) : Except GraphFault Graph :=
  match g.store.linkLibrary t library with
  | .ok store => .ok { g with store }
  | .error cycle => .error (.libraryCycle cycle)

/-- Puts a target that is compiled from some libraries into the store. It is not registered yet. -/
def newTarget (g : Graph) (t : Target) (libraries : List TargetId) :
    Except GraphFault (TargetId × Graph) := do
  let (id, store) := g.store.newTarget t
  return (id, ← libraries.foldlM (·.linkLibrary id) { g with store })

/-- The merged source list of a target, which is remembered. -/
def commonSources (g : Graph) (t : TargetId) : List SourceId × Graph :=
  let (ids, store) := g.store.commonSources t
  (ids, { g with store })

/-- Makes a target and everything that it is compiled into forget their merged source lists. -/
def clearSources (g : Graph) (t : TargetId) : Graph :=
  { g with store := g.store.clearSources t }

/-- Adds an entry of the store to a target, unless the target has an entry with the same path. -/
def addSource (g : Graph) (t : TargetId) (id : SourceId) : SourceId × Graph :=
  let (kept, store) := g.store.addSource t id
  (kept, { g with store })

/-- Puts a new source entry into the store. -/
def newSource (g : Graph) (entry : SourceFile) : SourceId × Graph :=
  let (id, store) := g.store.newSource entry
  (id, { g with store })

/-- The first entry with a path among the own sources of the registered targets. -/
def declaredSource? (g : Graph) (path : String) : Option SourceId :=
  g.targetIds.findSome? fun t => g.store.findPath? path (g.target t).sources

/-- The source entry that stands for a path: the one that stood for it before, else the first one
that a target declares, else a new one. -/
def sourceFor (g : Graph) (path : String) : SourceId × Graph :=
  match g.sourceIndex.get? path with
  | some id => (id, g)
  | none =>
    match g.declaredSource? path with
    | some id => (id, { g with sourceIndex := g.sourceIndex.insert path id })
    | none =>
      let (id, g) := g.newSource { path }
      (id, { g with sourceIndex := g.sourceIndex.insert path id })

/-- The registered targets that have a source entry. -/
def owners (g : Graph) (id : SourceId) : List TargetId :=
  g.targetIds.filter fun t => (g.target t).sources.contains id

/-- Adds files to a source group, which comes into being with its first mention. -/
def addToSourceGroup (g : Graph) (folders files : List String) : Graph :=
  let group := (g.sourceGroups.get? folders).getD .empty
  { g with sourceGroups := g.sourceGroups.insert folders (group.insertAll files) }

/-- Adds files that a clean build removes. -/
def addCleanFiles (g : Graph) (files : List String) : Graph :=
  { g with cleanFiles := g.cleanFiles.insertAll files }

/-- Adds files whose change calls for a new configuration of the project. -/
def addReconfigureFiles (g : Graph) (files : List String) : Graph :=
  { g with reconfigureFiles := g.reconfigureFiles.insertAll files }

end Graph

end Autogen
