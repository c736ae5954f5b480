import Autogen.OrderedMap
import Autogen.Path.Basic

/-!
# The file system

A tree of directories, regular files with their permissions, and symbolic links, held as a map from
locations to entries.

## Main definitions

* `FileSystem.File`, `FileSystem.Node`, `FileSystem` — the entries and the tree.
* `FileSystem.find?`, `FileSystem.put` — the entry at a location, and its replacement.
* `FileSystem.SpellingFault`, `FileSystem.Fault` — the ways in which an operation on the tree fails.
-/

namespace Autogen

/-- A place in the tree: the names from the root down. -/
abbrev Location := List String

namespace FileSystem

/-- The content and the permission bits of a regular file. -/
structure File where
  content : ByteArray
  mode : Nat

instance : DecidableEq File := fun a b =>
  decidable_of_iff (a.content.data = b.content.data ∧ a.mode = b.mode) (by
    cases a
    cases b
    simp [ByteArray.ext_iff])

/-- The permission bit that lets the owner read. -/
def ownerRead : Nat := 0o400

/-- The permission bit that lets the owner write. -/
def ownerWrite : Nat := 0o200

/-- The permission bit that lets the group execute. -/
def groupExecute : Nat := 0o010

/-- The bit with which a program runs as the owner of its file. -/
def runsAsOwner : Nat := 0o4000

/-- The bit with which a program runs as the group of its file. -/
def runsAsGroup : Nat := 0o2000

/-- The permission bits of a new file. -/
def newFileMode : Nat := 0o644

/-- Whether a mode has a bit. -/
def hasBit (mode bit : Nat) : Bool :=
  mode &&& bit != 0

/-- A mode without a bit. -/
def dropBit (mode bit : Nat) : Nat :=
  mode ^^^ (mode &&& bit)

/-- The mode of a file after its content has changed: a new program is not trusted to run as anyone
else. The bit for the group means something else on a file that the group cannot execute. -/
def changedMode (mode : Nat) : Nat :=
  let mode := dropBit mode runsAsOwner
  if hasBit mode groupExecute then dropBit mode runsAsGroup else mode

/-- What can stand at a location. Directories are kept without their permissions: whoever runs the
planner may look through every directory and make entries in it. -/
inductive Node where
  | directory
  | file (file : File)
  | link (target : String)
deriving DecidableEq

/-- Why the system cannot be asked about a text: it holds the character that ends texts for the
system, or it has no encoding. -/
inductive SpellingFault where
  | embeddedNul
  | unencodable
deriving DecidableEq, Repr

/-- The text of a spelling fault. -/
def SpellingFault.message : SpellingFault → String
  | .embeddedNul => "embedded null byte"
  | .unencodable => "the text has no encoding"

/-- The ways in which an operation on the tree fails. -/
inductive Fault where
  | notFound
  | notADirectory
  | isADirectory
  | alreadyExists
  | permissionDenied
  | nameTooLong
  | tooManyLinks
  | spelling (fault : SpellingFault)
deriving DecidableEq, Repr

/-- The system's text for a fault. -/
def Fault.message : Fault → String
  | .notFound => "No such file or directory"
  | .notADirectory => "Not a directory"
  | .isADirectory => "Is a directory"
  | .alreadyExists => "File exists"
  | .permissionDenied => "Permission denied"
  | .nameTooLong => "File name too long"
  | .tooManyLinks => "Too many levels of symbolic links"
  | .spelling fault => fault.message

/-- The content of a file for its owner. -/
def File.read (file : File) : Except Fault ByteArray :=
  if hasBit file.mode ownerRead then .ok file.content else .error .permissionDenied

/-- A file with another content. -/
def File.overwrite (file : File) (content : ByteArray) : File :=
  ⟨content, changedMode file.mode⟩

end FileSystem

/-- A tree of files. The root is always there; the other entries are kept by location. -/
structure FileSystem where
  entries : OrderedMap Location FileSystem.Node
deriving DecidableEq

namespace FileSystem

/-- The tree that has only its root. -/
def empty : FileSystem :=
  ⟨.empty⟩

/-- The entry at a location. -/
def find? (fs : FileSystem) (loc : Location) : Option Node :=
  if loc = [] then some .directory else fs.entries.get? loc

/-- The tree with the given entry at `loc`. -/
def put (fs : FileSystem) (loc : Location) (node : Node) : FileSystem :=
  ⟨fs.entries.insert loc node⟩

/-- Putting an entry changes what is found at its location and nowhere else. -/
theorem find?_put (fs : FileSystem) {loc : Location} (h : loc ≠ []) (node : Node)
    (other : Location) :
    (fs.put loc node).find? other = if other = loc then some node else fs.find? other := by
  by_cases ho : other = []
  · simp [find?, ho, Ne.symm h]
  · simp [find?, put, ho, OrderedMap.get?_insert]

end FileSystem

end Autogen
