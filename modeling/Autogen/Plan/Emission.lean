import Autogen.Descriptor.File
import Autogen.Plan.Build
import Autogen.Plan.Entries

/-!
# Carrying out a plan

A plan is carried out by registering the generation step and the generated files with the build
graph and writing the descriptor.

## Main definitions

* `composeComment` — the comment of a generation step.
* `Graph.emit` — carries out a plan.
* `Graph.run` — makes a plan and carries it out.
* `Graph.candidates`, `Graph.runAll` — the targets with a generator enabled, and their runs.
-/

namespace Autogen

variable [Environment]

/-- The names of tools as a list in a sentence. -/
def toolPhrase : List String → String
  | [] => ""
  | [name] => name
  | [first, last] => first ++ " and " ++ last
  | first :: rest => first ++ ", " ++ toolPhrase rest

/-- The comment of the generation step of a target. -/
def composeComment (tools : List Tool) (target : String) : String :=
  "Automatic " ++ toolPhrase (tools.map (·.capital)) ++ " for target " ++ target

/-- The ways in which a run fails. -/
inductive RunFault where
  | plan (fault : PlanFault)
  | graph (fault : GraphFault)
  | emptyDelimiter
  | descriptor (fault : Descriptor.WriteFault)
deriving DecidableEq, Repr

/-- The text of a run fault. -/
def RunFault.message : RunFault → String
  | plan fault => fault.message
  | graph fault => fault.message
  | emptyDelimiter => "the delimiter of source groups is empty"
  | descriptor fault => fault.message

/-- The name of the source group for the files of a tool: its own, else the common one. -/
def ProjectSettings.groupFor (s : ProjectSettings) (tool : Tool) : Option String :=
  let own := match tool with
    | .moc => s.automocSourceGroup
    | .rcc => s.autorccSourceGroup
    | .uic => none
  (given? own).or (given? s.autogenSourceGroup)

/-- The folder of the generation step of a target. -/
def ProjectSettings.folderFor (s : ProjectSettings) (t : Target) : Option String :=
  ((given? s.automocTargetsFolder).or (given? s.autogenTargetsFolder)).or
    (given? t.properties.folder)

/-- The folders of a source group. -/
def groupFolders (delimiter name : String) : List String :=
  (Text.splitOn delimiter name).filter (· ≠ "")

/-- The message about a source group whose name holds no folder. -/
def groupMessage (name : String) : String :=
  "Autogen: Could not create or find source group: \"" ++ name ++ "\""

namespace Graph

/-- The effects of a plan on the graph so far. -/
structure Effects where
  graph : Graph
  diagnostics : Diagnostics

/-- Adds a generated file to its source group, if it has one. -/
def groupFile (e : Effects) (file : GeneratedFile) : Effects × Option RunFault :=
  match e.graph.settings.groupFor file.tool with
  | none => (e, none)
  | some name =>
    let delimiter := e.graph.settings.sourceGroupDelimiter
    if delimiter = "" then (e, some .emptyDelimiter)
    else
      let folders := groupFolders delimiter name
      if folders.isEmpty then
        ({ e with diagnostics := e.diagnostics.error (groupMessage name) }, none)
      else ({ e with graph := e.graph.addToSourceGroup folders [file.path] }, none)

/-- Marks a source entry as the output of a plan. -/
def markOutput (s : SourceFile) : SourceFile :=
  { s with generated := true, skipAutogen := true, autogenOutput := true }

/-- Makes a generated file a source of a target. -/
def registerSource (g : Graph) (t : TargetId) (path : String) : Graph :=
  let (id, g) := g.sourceFor path
  ((g.modifySource id markOutput).addSource t id).2

/-- Registers generated files in turn, up to the first one that fails. -/
def registerFiles (t : TargetId) : Effects → List GeneratedFile → Effects × Option RunFault
  | e, [] => (e, none)
  | e, file :: rest =>
    match groupFile { e with graph := e.graph.registerSource t file.path } file with
    | (e, some fault) => (e, some fault)
    | (e, none) => registerFiles t e rest

/-- The step that generates the code of a target. -/
def generationStep (g : Graph) (t : Target) (p : Plan) : UtilityStep where
  name := p.autogenTargetName
  workingDirectory := p.workingDirectory
  byproducts := p.generatedFiles.map (·.path)
  depends := p.dependencies
  commandLines :=
    [[g.settings.cmakeCommand, "-E", "cmake_autogen", p.filesDir, "$<CONFIGURATION>"]]
  comment := composeComment p.enabledTools p.targetName
  folder := g.settings.folderFor t

/-- What carrying out a plan leaves behind: the graph, the diagnostics and the file system, and
the path of the descriptor or the fault. -/
structure Emission where
  graph : Graph
  diagnostics : Diagnostics
  files : FileSystem
  result : Except RunFault Path

/-- Carries out a plan of a target. -/
def emit (g : Graph) (fs : FileSystem) (id : TargetId) (p : Plan) (ds : Diagnostics) : Emission :=
  let g := g.addCleanFiles (p.buildDir :: g.oldSettingsFiles (g.target id))
  match registerFiles id ⟨g, ds⟩ p.generatedFiles with
  | (e, some fault) => ⟨e.graph, e.diagnostics, fs, .error fault⟩
  | (e, none) =>
    match e.graph.addUtilityStep (e.graph.generationStep (e.graph.target id) p) with
    | .error fault => ⟨e.graph, e.diagnostics, fs, .error (.graph fault)⟩
    | .ok g =>
      let g := g.modifyTarget id (·.addUtility p.autogenTargetName)
      let path := Path.ofString p.infoFile
      match Descriptor.write fs path p.render with
      | (fs, .error fault) => ⟨g, e.diagnostics, fs, .error (.descriptor fault)⟩
      | (fs, .ok ()) => ⟨g, e.diagnostics, fs, .ok path⟩

/-- The result of a run: the plan, the path of its descriptor and the diagnostics. -/
structure RunResult where
  plan : Plan
  descriptor : Path
  diagnostics : Diagnostics

/-- What a run leaves behind: the graph and the file system, and the result or the fault. -/
structure RunOutcome where
  graph : Graph
  files : FileSystem
  result : Except RunFault RunResult

/-- Makes the plan of a target and carries it out. -/
def run (g : Graph) (fs : FileSystem) (lister : ResourceLister) (id : TargetId) : RunOutcome :=
  let outcome := g.plan fs lister id
  match outcome.result with
  | .error fault => ⟨outcome.graph, fs, .error (.plan fault)⟩
  | .ok p =>
    let done := outcome.graph.emit fs id p outcome.diagnostics
    ⟨done.graph, done.files, done.result.map fun path => ⟨p, path, done.diagnostics⟩⟩

/-- The log lines of a run. -/
def RunResult.log (r : RunResult) : String :=
  r.diagnostics.log ++
    logLine "INFO" ("planned " ++ Text.join ", " (r.plan.enabledTools.map (·.text)) ++
      " for target " ++ r.plan.targetName)

/-- The targets with a generator enabled, in the order of registration. -/
def candidates (g : Graph) : List TargetId :=
  g.targetIds.filter fun t => (g.target t).properties.anyGeneratorEnabled

/-- Runs targets in turn, up to the first one that fails. -/
def runEach (lister : ResourceLister) :
    List TargetId → Graph → FileSystem → Graph × FileSystem × Except RunFault (List RunResult)
  | [], g, fs => (g, fs, .ok [])
  | t :: rest, g, fs =>
    match g.run fs lister t with
    | ⟨g, fs, .error fault⟩ => (g, fs, .error fault)
    | ⟨g, fs, .ok result⟩ =>
      match runEach lister rest g fs with
      | (g, fs, .error fault) => (g, fs, .error fault)
      | (g, fs, .ok results) => (g, fs, .ok (result :: results))

/-- Runs all targets with a generator enabled. -/
def runAll (g : Graph) (fs : FileSystem) (lister : ResourceLister) :
    Graph × FileSystem × Except RunFault (List RunResult) :=
  runEach lister g.candidates g fs

end Graph

end Autogen
