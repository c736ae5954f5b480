import Autogen.OrderedSet
import Autogen.Settings
import Autogen.Source

/-!
# Targets and their sources

Targets and source entries, which are known by identity: a source entry can belong to several
targets, and a target can be compiled into several others as an object library. The store holds
both; the lists of a target name them.

## Main definitions

* `Target`, `Store` — a target, and all targets and source entries.
* `Store.addSource`, `Store.linkLibrary` — the growth of a target.
* `Store.libraries`, `Store.dependents` — what a target is compiled from and into.
* `Store.commonSources` — the merged source list of a target, which is remembered.
* `Store.clearSources` — makes a target and everything that it is compiled into forget the list.
-/

namespace Autogen

/-- The identity of a source entry. -/
abbrev SourceId := Nat

/-- The identity of a target. -/
abbrev TargetId := Nat

/-- A target to be built. The targets in `consumers` are those that list it as an object library;
`sourceCache` is the merged source list if it is remembered. -/
structure Target where
  name : String
  sourceDir : String
  binaryDir : String
  properties : TargetProperties := {}
  sources : List SourceId := []
  utilities : OrderedSet String := .empty
  linkLibraries : List String := []
  includeDirectories : List String := []
  compileDefinitions : List String := []
  configIncludeDirectories : ConfigLists := .empty
  configCompileDefinitions : ConfigLists := .empty
  objectLibraries : List TargetId := []
  consumers : List TargetId := []
  sourceCache : Option (List SourceId) := none
deriving DecidableEq

instance : Inhabited Target :=
  ⟨{ name := "", sourceDir := "", binaryDir := "" }⟩

namespace Target

/-- Adds an include directory at the end or, on demand, in front, unless it is there already. -/
def addIncludeDirectory (t : Target) (directory : String) (before : Bool) : Target :=
  if directory ∈ t.includeDirectories then t
  else if before then { t with includeDirectories := directory :: t.includeDirectories }
  else { t with includeDirectories := t.includeDirectories ++ [directory] }

/-- Adds the name of a utility that the target depends on. -/
def addUtility (t : Target) (name : String) : Target :=
  { t with utilities := t.utilities.insert name }

/-- The include directories in a configuration: the common ones and then its own. -/
def includeDirectoriesFor (t : Target) (config : String) : List String :=
  ((OrderedSet.ofList t.includeDirectories).insertAll
    ((t.configIncludeDirectories.get? config).getD [])).toList

/-- The compile definitions in a configuration, common ones and its own, in increasing order. -/
def compileDefinitionsFor (t : Target) (config : String) : List String :=
  Text.sortedDistinct
    (t.compileDefinitions ++ (t.configCompileDefinitions.get? config).getD [])

/-- The uic options in a configuration: the common ones and then its own. -/
def autouicOptionsFor (t : Target) (config : String) : List String :=
  t.properties.autouicOptions ++ (t.properties.autouicConfigOptions.get? config).getD []

end Target

/-- What keeps the links between targets from being changed as asked. -/
structure LibraryCycle where
  library : String
  target : String
deriving DecidableEq, Repr

/-- The text of a refused link. -/
def LibraryCycle.message (c : LibraryCycle) : String :=
  "Object library '" ++ c.library ++ "' of target '" ++ c.target ++ "' would create a cycle"

/-- All targets and source entries. -/
structure Store where
  sources : List SourceFile
  targets : List Target
deriving DecidableEq

namespace Store

/-- The store of nothing. -/
def empty : Store :=
  ⟨[], []⟩

/-- The source entry of an identity. -/
def source (s : Store) (id : SourceId) : SourceFile :=
  s.sources.getD id default

/-- The target of an identity. -/
def target (s : Store) (id : TargetId) : Target :=
  s.targets.getD id default

/-- The store with one source entry changed. -/
def modifySource (s : Store) (id : SourceId) (f : SourceFile → SourceFile) : Store :=
  { s with sources := s.sources.modify id f }

/-- The store with one target changed. -/
def modifyTarget (s : Store) (id : TargetId) (f : Target → Target) : Store :=
  { s with targets := s.targets.modify id f }

/-- The identity of a new source entry, and the store with it. -/
def newSource (s : Store) (entry : SourceFile) : SourceId × Store :=
  (s.sources.length, { s with sources := s.sources ++ [entry] })

/-- The identity of a new target, and the store with it. -/
def newTarget (s : Store) (t : Target) : TargetId × Store :=
  (s.targets.length, { s with targets := s.targets ++ [t] })

/-- The path of a source entry. -/
def path (s : Store) (id : SourceId) : String :=
  (s.source id).path

/-- The source entries of a target itself. -/
def ownSources (s : Store) (t : TargetId) : List SourceFile :=
  (s.target t).sources.map s.source

/-- The first of some source entries that has a path. -/
def findPath? (s : Store) (path : String) (ids : List SourceId) : Option SourceId :=
  ids.find? fun id => s.path id = path

/-- Adds an entry of the store to a target, unless the target has an entry with the same path.
Gives the entry that the target has then. The remembered source lists are left as they are. -/
def addSource (s : Store) (t : TargetId) (id : SourceId) : SourceId × Store :=
  match s.findPath? (s.path id) (s.target t).sources with
  | some present => (present, s)
  | none => (id, s.modifyTarget t fun x => { x with sources := x.sources ++ [id] })

/-- Adds new entries to a target in turn; of several with the same path the first one counts. -/
def addNewSources (s : Store) (t : TargetId) (entries : List SourceFile) : Store :=
  entries.foldl (fun s entry => let (id, s) := s.newSource entry; (s.addSource t id).2) s

/-- The object libraries of a target, each one followed by its own, down to a depth. -/
def librariesWithin (s : Store) : Nat → TargetId → List TargetId
  | 0, _ => []
  | depth + 1, t =>
    (s.target t).objectLibraries.flatMap fun library => library :: s.librariesWithin depth library

/-- The object libraries of a target, each one followed by its own. A library is listed as often
as it is reached. Links between targets form no cycle, so no chain of them is longer than the
number of targets.

The depth of the stack bounds how deep documents are nested (`Json.nestingLimit`,
`Yaml.nestingLimit`, `Toml.nestingRoom`) and how deep links lead into one another
(`FileSystem.linkDepth`), because one file or one link is enough to go beyond that. It does not
bound chains of libraries here: where they would end depends on who asks for them, so they are
followed however long they are. -/
def libraries (s : Store) (t : TargetId) : List TargetId :=
  s.librariesWithin s.targets.length t

/-- A target followed by everything that it is compiled into, down to a depth. -/
def dependentsWithin (s : Store) : Nat → TargetId → List TargetId
  | 0, t => [t]
  | depth + 1, t => t :: (s.target t).consumers.flatMap (s.dependentsWithin depth)

/-- A target followed by everything that it is compiled into, directly or through others. -/
def dependents (s : Store) (t : TargetId) : List TargetId :=
  s.dependentsWithin s.targets.length t

/-- Makes some targets forget their merged source lists. -/
def forget (s : Store) (ts : List TargetId) : Store :=
  ts.foldl (fun s t => s.modifyTarget t fun x => { x with sourceCache := none }) s

/-- Makes a target and everything that it is compiled into forget their merged source lists. As
for `libraries`, the depth of the stack is no bound. -/
def clearSources (s : Store) (t : TargetId) : Store :=
  s.forget (s.dependents t)

/-- Compiles the sources of `library` into `t` as well. A library that is `t` itself or is
compiled from it is refused; one that `t` lists already is left alone. -/
def linkLibrary (s : Store) (t library : TargetId) : Except LibraryCycle Store :=
  if library = t ∨ t ∈ s.libraries library then
    .error ⟨(s.target library).name, (s.target t).name⟩
  else if library ∈ (s.target t).objectLibraries then .ok s
  else
    let linked := s.modifyTarget t fun x =>
      { x with objectLibraries := x.objectLibraries ++ [library] }
    let known := linked.modifyTarget library fun x => { x with consumers := x.consumers ++ [t] }
    .ok (known.clearSources t)

/-- Appends the entries of `later` whose paths are not yet in the list. -/
def mergeSources (s : Store) (merged later : List SourceId) : List SourceId :=
  later.foldl
    (fun merged id => if s.path id ∈ merged.map s.path then merged else merged ++ [id]) merged

/-- Merges the source lists of libraries into a list, in turn. `listOf` gives the list of one
library, and the store with what was remembered on the way. -/
def mergeLibraries (listOf : TargetId → Store → List SourceId × Store) :
    List TargetId → List SourceId → Store → List SourceId × Store
  | [], merged, s => (merged, s)
  | library :: rest, merged, s =>
    let (ids, s) := listOf library s
    mergeLibraries listOf rest (s.mergeSources merged ids) s

/-- The merged source list of a target, remembered there and in its libraries, down to a depth. -/
def commonSourcesWithin : Nat → TargetId → Store → List SourceId × Store
  | 0, t, s => ((s.target t).sources, s)
  | depth + 1, t, s =>
    match (s.target t).sourceCache with
    | some ids => (ids, s)
    | none =>
      let (merged, s) := mergeLibraries (commonSourcesWithin depth)
        (s.target t).objectLibraries (s.target t).sources s
      (merged, s.modifyTarget t fun x => { x with sourceCache := some merged })

/-- The sources of a target followed by those of its object libraries, one for each path. The list
is remembered in the target, and so are the lists of the libraries. As for `libraries`, the depth of
the stack is no bound. -/
def commonSources (s : Store) (t : TargetId) : List SourceId × Store :=
  commonSourcesWithin s.targets.length t s

/-- Whether the merged source list of a target is remembered. -/
def isCached (s : Store) (t : TargetId) : Bool :=
  (s.target t).sourceCache.isSome

theorem target_modifyTarget (s : Store) (i j : TargetId) (f : Target → Target) :
    (s.modifyTarget i f).target j =
      if i = j ∧ j < s.targets.length then f (s.target j) else s.target j := by
  simp only [target, modifyTarget, List.getD_eq_getElem?_getD, List.getElem?_modify]
  by_cases h : i = j
  · by_cases hj : j < s.targets.length
    · simp [h, hj]
    · simp [h, hj]
  · simp [h]

theorem source_modifyTarget (s : Store) (i : TargetId) (f : Target → Target) (id : SourceId) :
    (s.modifyTarget i f).source id = s.source id := rfl

theorem source_modifySource (s : Store) (i j : SourceId) (f : SourceFile → SourceFile) :
    (s.modifySource i f).source j =
      if i = j ∧ j < s.sources.length then f (s.source j) else s.source j := by
  simp only [source, modifySource, List.getD_eq_getElem?_getD, List.getElem?_modify]
  by_cases h : i = j
  · by_cases hj : j < s.sources.length
    · simp [h, hj]
    · simp [h, hj]
  · simp [h]

end Store

end Autogen
