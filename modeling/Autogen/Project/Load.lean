import Autogen.Config.File
import Autogen.FileSystem.Canonical
import Autogen.Project.Mapping
import Autogen.Text.Blank

/-!
# Projects from files

The build graph of a project description in a file. The directories of a project are taken from
the directory that the file really stands in.

## Main definitions

* `anchorDirectories` — a description with the directories of its project made absolute.
* `Graph.load` — the graph of a description in a file.
* `ProjectLoadFault` — the ways in which that fails.
-/

namespace Autogen

variable [Environment]

/-- The fields of a project section that name its directories. -/
def directoryFields : List String :=
  ["source_dir", "binary_dir"]

/-- The value of a field of a project section, where a directory is taken from `base` unless its
name is blank. -/
def anchorDirectory (base : String) (key value : Value) : Value :=
  match key, value with
  | .string name, .string dir =>
    if directoryFields.contains name && Text.strip dir != "" then
      .string (collapsePath (Text.strip dir) base)
    else value
  | _, _ => value

/-- A description in which the directories of the project section are taken from `base`. -/
def anchorDirectories (base : String) (fields : Fields) : Fields :=
  fields.map fun
    | (.string "project", .map project) =>
      (.string "project", .map (project.map fun (key, value) =>
        (key, anchorDirectory base key value)))
    | pair => pair

/-- The ways in which the description of a project cannot be loaded from a file. -/
inductive ProjectLoadFault where
  | load (fault : LoadFault)
  | path (fault : PathFault)
  | project (fault : ProjectFault)

/-- The text of a fault of loading a project. -/
def ProjectLoadFault.message : ProjectLoadFault → String
  | load fault => fault.message
  | path fault => fault.message
  | project fault => fault.message

/-- Whether a description has a project section with fields. -/
def hasProject (fields : Fields) : Bool :=
  match Value.field? "project" fields with
  | some (.map _) => true
  | _ => false

/-- The graph of the project description in the file at a path. -/
def Graph.load (fs : FileSystem) (path : Path) : Except ProjectLoadFault Graph := do
  let fields ← (loadConfig fs path).mapError .load
  if hasProject fields then
    let place ← (fs.canonical path).mapError .path
    (ofMapping (anchorDirectories place.parent.text fields)).mapError .project
  else (ofMapping fields).mapError .project

end Autogen
