import Autogen.FileSystem.Lookup

/-!
# Writing

Creation of directories and files. Every operation returns the tree it leaves behind together with
its outcome, because a failure keeps the directories that were made before it.

## Main definitions

* `FileSystem.makeDirectory`, `FileSystem.makeDirectories` — one directory, and all of a path.
* `FileSystem.makeWritable` — gives an existing file the permission to be written by its owner.
* `FileSystem.replaceContent` — the content of a file, which is created if need be.
-/

namespace Autogen.FileSystem

variable [Environment]

/-- Makes one directory in a directory that exists. -/
def makeDirectory (fs : FileSystem) (p : Path) : Except Fault FileSystem :=
  match fs.lookup .link p.text with
  | .error fault => .error fault
  | .ok ⟨location, none⟩ => .ok (fs.put location .directory)
  | .ok ⟨_, some _⟩ => .error .alreadyExists

/-- Whether a failure to make a directory can be passed over because the path leads to one. -/
def tolerate (fs : FileSystem) (p : Path) (fault : Fault) : Except Fault Unit :=
  match fault, fs.isDirectory p with
  | .spelling _, _ => .error fault
  | _, .ok true => .ok ()
  | _, .ok false => .error fault
  | _, .error other => .error other

/-- Makes the directory at `anchor` and the given names, the last name first, and before it those
above it that are missing. -/
def makeDirectoriesUp (fs : FileSystem) (anchor : Path.Anchor) :
    List String → FileSystem × Except Fault Unit
  | [] =>
    let p : Path := ⟨anchor, []⟩
    match fs.makeDirectory p with
    | .ok made => (made, .ok ())
    | .error .notFound => (fs, .error .notFound)
    | .error fault => (fs, fs.tolerate p fault)
  | last :: above =>
    let p : Path := ⟨anchor, (last :: above).reverse⟩
    match fs.makeDirectory p with
    | .ok made => (made, .ok ())
    | .error .notFound =>
      match makeDirectoriesUp fs anchor above with
      | (made, .error fault) => (made, .error fault)
      | (made, .ok ()) =>
        match made.makeDirectory p with
        | .ok done => (done, .ok ())
        | .error .notFound => (made, .error .notFound)
        | .error fault => (made, made.tolerate p fault)
    | .error fault => (fs, fs.tolerate p fault)

/-- Makes the directory of a path and the missing ones above it; one that exists is fine. -/
def makeDirectories (fs : FileSystem) (p : Path) : FileSystem × Except Fault Unit :=
  makeDirectoriesUp fs p.anchor p.parts.reverse

/-- Adds the owner's write permission to the file that a path leads to, if there is one. A directory
would get it as well, but the permissions of directories are not kept. -/
def makeWritable (fs : FileSystem) (p : Path) : Except Fault FileSystem :=
  match fs.lookup .target p.text with
  | .ok ⟨location, some (.file file)⟩ =>
    .ok (fs.put location (.file { file with mode := file.mode ||| ownerWrite }))
  | .ok _ => .ok fs
  | .error fault => if fault.isAbsence then .ok fs else .error fault

/-- Gives the file that a path leads to a new content; a file that is missing is created. -/
def replaceContent (fs : FileSystem) (p : Path) (content : ByteArray) :
    Except Fault FileSystem :=
  match fs.lookup .creation p.text with
  | .error fault => .error fault
  | .ok ⟨location, some (.file file)⟩ => .ok (fs.put location (.file (file.overwrite content)))
  | .ok ⟨location, none⟩ => .ok (fs.put location (.file ⟨content, newFileMode⟩))
  | .ok ⟨_, some _⟩ => .error .isADirectory

/-- Writes a file together with the directories it needs. -/
def write (fs : FileSystem) (p : Path) (content : ByteArray) : FileSystem × Except Fault Unit :=
  match fs.makeDirectories p.parent with
  | (made, .error fault) => (made, .error fault)
  | (made, .ok ()) =>
    match made.makeWritable p with
    | .error fault => (made, .error fault)
    | .ok writable =>
      match writable.replaceContent p content with
      | .error fault => (writable, .error fault)
      | .ok done => (done, .ok ())

/-- The tree with an entry at a path and the directories above it. -/
def place (fs : FileSystem) (p : Path) (node : Node) : FileSystem :=
  let p := p.absolute
  let made := (fs.makeDirectories p.parent).1
  match made.lookup .link p.text with
  | .ok found => if found.location = [] then made else made.put found.location node
  | .error _ => made

end Autogen.FileSystem
