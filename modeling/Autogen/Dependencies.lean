import Autogen.Classification
import Autogen.Tool

/-!
# Dependencies of the generation step

What has to exist before the code of a target is generated.

## Main definitions

* `ResourceLister` — how the inputs of a resource file are found; `declaredInputs` is the usual
  one.
* `DependencyRequest` — what the dependencies are collected for.
* `DependencyRequest.collect` — the dependencies of a target.
* `Graph.collectDependencies` — the same with what it does to the graph and the diagnostics.
-/

namespace Autogen

variable [Environment]

/-- Why the inputs of a resource file could not be listed. A lister that refuses names the file that
it refuses, which need not be the one it was asked about. -/
inductive ListingFault where
  | refused (file reason : String)
  | path (fault : PathFault)
deriving DecidableEq, Repr

/-- A way to list the inputs of a resource file with the help of the tool that packs it. -/
abbrev ResourceLister :=
  FileSystem → Resource → ToolBinding → Except ListingFault (List String)

/-- The message about a resource file whose inputs could not be listed. -/
def listingMessage (file reason : String) : String :=
  "AUTORCC: Could not list inputs of \"" ++ file ++ "\": " ++ reason

/-- The canonical forms of paths that are taken from the directory of a file. -/
def canonicalBeside (fs : FileSystem) (file : String) (paths : List String) :
    Except PathFault (List String) :=
  paths.mapM fun path => canonicalPath fs path (some (Path.ofString file).parent.text)

/-- Lists the inputs that the project declares for the resource file. -/
def declaredInputs : ResourceLister := fun fs resource _ =>
  match resource.declaredInputs with
  | none => .error (.refused resource.path "no input list is declared for this file")
  | some inputs => (canonicalBeside fs resource.path inputs).mapError .path

/-- What the generation step of a target depends on: files and names in their order, the inputs of
each resource file, and the resource files whose change calls for a new configuration. -/
structure Dependencies where
  depends : OrderedSet String := .empty
  resourceInputs : OrderedMap String (List String) := .empty
  reconfigureFiles : OrderedSet String := .empty
deriving DecidableEq

/-- What dependencies are collected for: a target, the names to be left out, the tool that packs
resource files, if there is one, and the way their inputs are listed. -/
structure DependencyRequest where
  target : Target
  exclude : List String
  binding : Option ToolBinding
  lister : ResourceLister

/-- What was collected so far: the dependencies, and the messages about resource files whose
inputs could not be listed. -/
structure DependencyTally where
  found : Dependencies := {}
  failures : List String := []

namespace DependencyRequest

/-- The dependencies that the target names: a known name stands for itself, anything else for a
file. -/
def declared (r : DependencyRequest) (g : Graph) (fs : FileSystem) :
    Except PathFault (List String) :=
  r.target.properties.autogenTargetDepends.mapM fun token =>
    if g.isKnown token then .ok token
    else canonicalPath fs token (some r.target.sourceDir)

/-- The utilities and link libraries that can be depended on and are not left out. -/
def linked (r : DependencyRequest) (g : Graph) : List String :=
  (r.target.utilities.toList ++ r.target.linkLibraries).filter fun name =>
    !r.exclude.contains name && g.isKnown name

/-- The inputs of a resource file, or nothing where there is no tool to list them; one that could
not be listed gives a message. -/
def inputsOf (r : DependencyRequest) (fs : FileSystem) (resource : Resource) :
    Except PathFault (Option (Except String (List String))) :=
  match r.binding with
  | none => .ok none
  | some binding =>
    match r.lister fs resource binding with
    | .error (.refused file reason) => .ok (some (.error (listingMessage file reason)))
    | .error (.path fault) => .error fault
    | .ok listed => do
      let inputs ← canonicalBeside fs resource.path listed
      return some (.ok (OrderedSet.ofList inputs).toList)

/-- Adds one resource file. A generated one has to exist itself; of another one the inputs have
to exist. -/
def addResource (r : DependencyRequest) (fs : FileSystem) (t : DependencyTally)
    (resource : Resource) : DependencyTally × Option PathFault :=
  let found := t.found
  if resource.generated then
    ({ t with found := { found with depends := found.depends.insert resource.path } }, none)
  else
    let found := { found with reconfigureFiles := found.reconfigureFiles.insert resource.path }
    match r.inputsOf fs resource with
    | .error fault => ({ t with found }, some fault)
    | .ok none => ({ t with found }, none)
    | .ok (some (.error message)) => ({ found, failures := t.failures ++ [message] }, none)
    | .ok (some (.ok inputs)) =>
      ({ t with
        found := { found with
          depends := found.depends.insertAll inputs
          resourceInputs := found.resourceInputs.insert resource.path inputs } }, none)

/-- Adds resource files in turn, up to the first one whose paths are at fault. -/
def addResources (r : DependencyRequest) (fs : FileSystem) :
    DependencyTally → List Resource → DependencyTally × Option PathFault
  | t, [] => (t, none)
  | t, resource :: rest =>
    match r.addResource fs t resource with
    | (t, some fault) => (t, some fault)
    | (t, none) => r.addResources fs t rest

/-- What the generation step depends on before any resource file is looked at. -/
def before (r : DependencyRequest) (g : Graph) (fs : FileSystem) (c : Classification) :
    Except PathFault (OrderedSet String) := do
  let declared ← r.declared g fs
  return ((OrderedSet.ofList declared).insertAll (r.linked g)).insertAll c.generatedScanFiles

/-- Collects the dependencies of a target whose sources are classified. Gives what was collected
together with the fault that ended it early, if there was one. -/
def collect (r : DependencyRequest) (g : Graph) (fs : FileSystem) (c : Classification) :
    DependencyTally × Option PathFault :=
  match r.before g fs c with
  | .error fault => ({}, some fault)
  | .ok depends => r.addResources fs { found := { depends } } c.resources

end DependencyRequest

/-- What collecting dependencies leaves behind: the graph, the diagnostics, and the dependencies or
the fault. -/
structure DependencyOutcome where
  graph : Graph
  diagnostics : Diagnostics
  result : Except PathFault Dependencies

/-- Collects the dependencies that are asked for. The graph takes note of the resource files, and
the messages are recorded as errors, even if a fault ends it early. -/
def Graph.collectDependencies (g : Graph) (fs : FileSystem) (r : DependencyRequest)
    (c : Classification) (ds : Diagnostics) : DependencyOutcome :=
  let (tally, fault?) := r.collect g fs c
  { graph := g.addReconfigureFiles tally.found.reconfigureFiles.toList
    diagnostics := ds.errors tally.failures
    result := match fault? with
      | some fault => .error fault
      | none => .ok tally.found }

end Autogen
