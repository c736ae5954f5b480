import Autogen.Path.Absolute

/-!
# Looking up paths

How the system finds the entry that a spelled path leads to: name by name from the root, through
symbolic links, of which it follows a limited number. A slash at the end of a path, or of the target
of a link, asks for a directory.

## Main definitions

* `FileSystem.stepNames` — the names of a spelled path in the order in which they are gone through.
* `FileSystem.turn`, `FileSystem.meet` — where one name leads.
* `FileSystem.lookup` — the location that a path leads to, with what stands there.
* `FileSystem.read`, `FileSystem.isDirectory`, `FileSystem.regularFile?`, `FileSystem.linkTarget?` —
  the questions asked about a path.
-/

namespace Autogen.FileSystem

/-- The number of symbolic links that one lookup follows. -/
def linkLimit : Nat := 40

/-- Whether a spelled path starts at the root. -/
def startsAtRoot (text : String) : Bool :=
  text.toList.head? == some '/'

/-- The names of a spelled path. A slash behind the last one shows as an empty name. -/
def stepNames (text : String) : List String :=
  let pieces := Text.splitOn "/" text
  let names := pieces.filter (· != "")
  if !names.isEmpty && pieces.getLast? == some "" then names ++ [""] else names

/-- What is meant by the last name of a path if a link stands there, and whether a file is to be
created if nothing does. -/
inductive Ending where
  | link
  | target
  | creation
deriving DecidableEq, Repr

/-- What a lookup arrives at: a location whose directory exists, and the entry there, if any. -/
structure Found where
  location : Location
  node : Option Node
deriving DecidableEq

/-- Where a link at a location in the directory `here` leads from: the root or that directory. -/
def linkStart (here : Location) (target : String) : Location :=
  if startsAtRoot target then [] else here

/-- Where one name leads: on to a directory, to an end, or to a link, whose target's names come
first then. -/
inductive Turn where
  | on (here : Location)
  | stop (found : Found)
  | fail (fault : Fault)
  | link (here : Location) (names : List String)

/-- Where a place in the directory `here` leads when the names `rest` follow. Only directories are
gone into. -/
def meet (fs : FileSystem) (ending : Ending) (here there : Location) (rest : List String) : Turn :=
  match fs.find? there with
  | none => if rest.isEmpty then .stop ⟨there, none⟩ else .fail .notFound
  | some .directory => .on there
  | some (.file file) =>
    if rest.isEmpty then .stop ⟨there, some (.file file)⟩ else .fail .notADirectory
  | some (.link target) =>
    if rest.isEmpty && ending = .link then .stop ⟨there, some (.link target)⟩
    else .link (linkStart here target) (stepNames target ++ rest)

/-- Where a name in the directory `here` leads when the names `rest` follow it. Entries are found by
their names as the system gives them back. A file is not created at a name with a slash behind
it. -/
def turn (fs : FileSystem) (ending : Ending) (here : Location) (name : String)
    (rest : List String) : Turn :=
  if name = "" ∨ name = "." then .on here
  else if name = ".." then .on here.dropLast
  else if ending = .creation ∧ rest = [""] then .fail .isADirectory
  else if isTooLong name then .fail .nameTooLong
  else fs.meet ending here (here ++ [settled name]) rest

/-- Goes through names from the directory `here`. What to do at a link is left to `follow`, which is
given the directory it starts from and the names still to be gone through. -/
def lookupNames (fs : FileSystem) (ending : Ending)
    (follow : Location → List String → Except Fault Found) :
    Location → List String → Except Fault Found
  | here, [] => .ok ⟨here, fs.find? here⟩
  | here, name :: rest =>
    match fs.turn ending here name rest with
    | .on here => lookupNames fs ending follow here rest
    | .stop found => .ok found
    | .fail fault => .error fault
    | .link here names => follow here names

/-- Goes through names following at most the given number of links. -/
def lookupWithin (fs : FileSystem) (ending : Ending) :
    Nat → Location → List String → Except Fault Found
  | 0 => lookupNames fs ending fun _ _ => .error .tooManyLinks
  | links + 1 => lookupNames fs ending (lookupWithin fs ending links)

variable [Environment]

/-- The names of a spelled path from the root on. -/
def namesFromRoot (text : String) : List String :=
  if startsAtRoot text then stepNames text else Path.workingDirectory.parts ++ stepNames text

/-- The location that a spelled path leads to, with what stands there. How long a path may be is
counted where it is told from the root, without the names that its parent names take back. -/
def lookup (fs : FileSystem) (ending : Ending) (text : String) : Except Fault Found :=
  match spellingFault? text with
  | some fault => .error (.spelling fault)
  | none =>
    if isPathTooLong (Path.ofString text).collapse.text then .error .nameTooLong
    else lookupWithin fs ending linkLimit [] (namesFromRoot text)

/-- The regular file that a spelled path leads to. -/
def file (fs : FileSystem) (text : String) : Except Fault File :=
  match fs.lookup .target text with
  | .error fault => .error fault
  | .ok ⟨_, some (.file file)⟩ => .ok file
  | .ok ⟨_, some .directory⟩ => .error .isADirectory
  | .ok ⟨_, _⟩ => .error .notFound

/-- The regular file that a spelled path leads to, if it leads to one. -/
def regularFile? (fs : FileSystem) (text : String) : Option File :=
  (fs.file text).toOption

/-- The content of the regular file that a path leads to. -/
def read (fs : FileSystem) (p : Path) : Except Fault ByteArray := do
  (← fs.file p.text).read

/-- The target of the link that a path leads to, if it leads to one, as the system gives it back. -/
def linkTarget? (fs : FileSystem) (p : Path) : Option String :=
  match fs.lookup .link p.text with
  | .ok ⟨_, some (.link target)⟩ => some (settled target)
  | _ => none

/-- The faults that count as absence when it is asked whether something is there. -/
def Fault.isAbsence : Fault → Bool
  | .notFound | .notADirectory | .tooManyLinks | .spelling _ => true
  | .isADirectory | .alreadyExists | .permissionDenied | .nameTooLong => false

/-- What a path leads to, if anything; a name that is too long is a fault even here. -/
def entry? (fs : FileSystem) (p : Path) : Except Fault (Option Node) :=
  match fs.lookup .target p.text with
  | .ok found => .ok found.node
  | .error fault => if fault.isAbsence then .ok none else .error fault

/-- Whether a path leads to a directory. -/
def isDirectory (fs : FileSystem) (p : Path) : Except Fault Bool :=
  match fs.entry? p with
  | .ok node => .ok (node == some .directory)
  | .error fault => .error fault

end Autogen.FileSystem
