import Autogen.Digest.Base32
import Autogen.Digest.Sha256
import Autogen.FileSystem.Basic
import Autogen.Graph.Basic
import Autogen.Path.Absolute
import Autogen.Text.Encoding

/-!
# Layout of the generated files

Names and places of what is generated for a target.

## Main definitions

* `Target.autogenName`, `Target.buildDir`, `Graph.filesDir`, `Graph.infoFile`,
  `Graph.oldSettingsFiles` — the names that go with a target.
* `checksumSeed`, `pathChecksum` — a short name for the directory of a file, which is the same
  wherever the tree lies.
* `requireChecksums` — accepts files that have such names.
* `resourceOutput` — the file that is generated for a resource file.
-/

namespace Autogen

namespace Target

variable [Environment]

/-- The name of the step that generates the code of a target. -/
def autogenName (t : Target) : String :=
  t.name ++ "_autogen"

/-- The directory of the generated code. -/
def buildDir (t : Target) : String :=
  match t.properties.autogenBuildDir with
  | some dir => if dir = "" then t.binaryDir ++ "/" ++ t.autogenName
      else collapsePath dir t.binaryDir
  | none => t.binaryDir ++ "/" ++ t.autogenName

/-- The directory of the files that steer the generation. -/
def filesDir (t : Target) (settings : ProjectSettings) : String :=
  t.binaryDir ++ "/" ++ settings.cmakeFilesDirectory ++ "/" ++ t.autogenName ++ ".dir"

/-- The descriptor of a target. -/
def infoFile (t : Target) (settings : ProjectSettings) : String :=
  t.filesDir settings ++ "/AutogenInfo.cmake"

end Target

/-- The files in which earlier generations of the target's code kept their settings. -/
def Graph.oldSettingsFiles (g : Graph) (t : Target) : List String :=
  g.configurationSuffixes.map fun suffix =>
    t.filesDir g.settings ++ "/AutogenOldSettings" ++ suffix ++ ".cmake"

/-- The directories relative to which the places of files are told apart, with their labels; the
first one that holds a file counts. -/
def Graph.checksumRoots (g : Graph) (t : Target) : List (String × String) :=
  [("CurrentSource", t.sourceDir), ("CurrentBinary", t.binaryDir),
    ("ProjectSource", g.settings.sourceDir), ("ProjectBinary", g.settings.binaryDir)]

/-- The text that stands for the directory of a file: below the first root that holds it, the
root's label and the way down from there, and elsewhere the directory itself. -/
def checksumSeed (path : String) (roots : List (String × String)) : String :=
  let dir := (Path.ofString path).parent
  match roots.findSome? fun root =>
      ((Path.ofString root.2).relativeTo? dir).map fun rest => root.1 ++ "/" ++ rest.text with
  | some seed => seed
  | none => dir.text

/-- The number of characters of a checksum. -/
def checksumLength : Nat := 10

/-- A short name for the text of a directory. -/
def seedChecksum (seed : String) : String :=
  .ofList ((Digest.base32Chars (Digest.sha256 (Text.encode seed).toList)).take checksumLength)

/-- A short name for the directory of a file. -/
def pathChecksum (path : String) (roots : List (String × String)) : String :=
  seedChecksum (checksumSeed path roots)

/-- Accepts files whose directories have short names, which the bytes of the texts that stand for
the directories are needed for. -/
def requireChecksums (paths : List String) (roots : List (String × String)) :
    Except FileSystem.SpellingFault Unit :=
  if paths.all fun path => Text.isEncodable (checksumSeed path roots) then .ok ()
  else .error .unencodable

/-- The file that is generated for a resource file. -/
def resourceOutput (buildDir path : String) (roots : List (String × String)) : String :=
  buildDir ++ "/" ++ pathChecksum path roots ++ "/qrc_" ++ (Path.ofString path).stem ++ ".cpp"

end Autogen
