import Autogen.Descriptor.Basic
import Autogen.FileSystem.Write
import Autogen.Text.Encoding

/-!
# Descriptor files

Writing and reading a descriptor in the file system.

## Main definitions

* `Descriptor.write` — puts a text into a file.
* `Descriptor.read` — the entries in a file.
-/

namespace Autogen.Descriptor

variable [Environment]

/-- Why a descriptor could not be written. -/
inductive WriteFault where
  | unwritable (path : Path) (fault : FileSystem.Fault)
  | spelling (fault : FileSystem.SpellingFault)
deriving DecidableEq, Repr

/-- The text of a write fault. -/
def WriteFault.message : WriteFault → String
  | unwritable path fault =>
    "Could not write autogen descriptor \"" ++ path.text ++ "\": " ++ fault.message
  | spelling fault => fault.message

/-- Puts a text into the file at a path, with the directories above it. The file is emptied before
it shows that the text has no encoding. -/
def write (fs : FileSystem) (p : Path) (content : String) :
    FileSystem × Except WriteFault Unit :=
  let encodable := Text.isEncodable content
  match fs.write p (if encodable then Text.encode content else .empty) with
  | (done, .ok ()) => (done, if encodable then .ok () else .error (.spelling .unencodable))
  | (done, .error (.spelling fault)) => (done, .error (.spelling fault))
  | (done, .error fault) => (done, .error (.unwritable p fault))

/-- Why a descriptor could not be read. -/
inductive ReadFault where
  | file (fault : FileSystem.Fault)
  | undecodable
  | malformed (line : MalformedLine)
deriving DecidableEq, Repr

/-- The text of a read fault. -/
def ReadFault.message : ReadFault → String
  | file fault => fault.message
  | undecodable => "the file is not UTF-8 text"
  | malformed line => line.message

/-- The text of a file, with its line ends unified. -/
def readText (fs : FileSystem) (p : Path) : Except ReadFault String :=
  match fs.read p with
  | .error fault => .error (.file fault)
  | .ok content =>
    match Text.read? content with
    | some text => .ok text
    | none => .error .undecodable

/-- The entries in the file at a path. -/
def read (fs : FileSystem) (p : Path) : Except ReadFault (OrderedMap String String) :=
  match readText fs p with
  | .error fault => .error fault
  | .ok text => (parse text).mapError .malformed

end Autogen.Descriptor
