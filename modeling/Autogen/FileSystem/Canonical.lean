import Autogen.FileSystem.Lookup
import Autogen.Text.Quoted

/-!
# Canonical paths

The absolute form of a path with every symbolic link on the way resolved. Names that do not exist
are kept. The resolution stops at a link that it is already in the middle of resolving; the link and
what was left of the path are then put together by their text.

## Main definitions

* `FileSystem.Resolution` — the outcome of resolving names.
* `FileSystem.resolve` — resolves the names of a path.
* `canonicalPath` — the canonical form of a path as text.
-/

namespace Autogen

variable [Environment]

/-- The ways in which a path has no canonical form. -/
inductive PathFault where
  | noHome
  | linkLoop (path : String)
  | tooDeep
  | spelling (fault : FileSystem.SpellingFault)
deriving DecidableEq, Repr

/-- The text of a path fault. -/
def PathFault.message : PathFault → String
  | .noHome => "Could not determine home directory."
  | .linkLoop path => "Symlink loop from " ++ Text.quoted path
  | .tooDeep => "links lead into one another too deeply"
  | .spelling fault => fault.message

namespace FileSystem

/-- The links met so far by the paths under which they were met: those that are resolved with the
path that they lead to, and those in the middle of whose resolution we are. -/
abbrev Links := OrderedMap Path (Option Path)

/-- The outcome of resolving names: a path free of links, or the text that is left where the
resolution stopped. -/
inductive Resolution where
  | done (place : Path) (links : Links)
  | stopped (text : String)
deriving DecidableEq

/-- A text to be taken from the path that another text spells, put behind it. A text that starts at
the root stands alone. -/
def joinTexts (before after : String) : String :=
  if startsAtRoot after then after
  else if before.toList.getLast?.all (· == '/') then before ++ after
  else before ++ "/" ++ after

/-- The directory above a path free of links. Above the place where a relative path starts there are
parent names only. -/
def above (p : Path) : Path :=
  if p.anchor = .relative ∧ p.parts.getLast?.all (· == "..") then
    { p with parts := p.parts ++ [".."] }
  else p.parent

/-- Resolves the pieces of a path between its slashes from the path `here`, which is free of links.
Resolving the target of a link is left to `enter`, which is given the directory of the link, its
target and the links met so far. -/
def resolvePieces (fs : FileSystem)
    (enter : Path → String → Links → Except PathFault Resolution) :
    Path → Links → List String → Except PathFault Resolution
  | here, links, [] => .ok (.done here links)
  | here, links, name :: rest =>
    if name = "" ∨ name = "." then resolvePieces fs enter here links rest
    else if name = ".." then resolvePieces fs enter (above here) links rest
    else
      let there := { here with parts := here.parts ++ [name] }
      let stopAt (text : String) := Resolution.stopped (joinTexts text (Text.join "/" rest))
      match spellingFault? name, fs.linkTarget? there, links.get? there with
      | some fault, _, _ => .error (.spelling fault)
      | none, none, _ => resolvePieces fs enter there links rest
      | none, some _, some (some place) => resolvePieces fs enter place links rest
      | none, some _, some none => .ok (stopAt there.text)
      | none, some target, none =>
        match enter here target (links.insert there none) with
        | .ok (.done place links) =>
          resolvePieces fs enter place (links.insert there (some place)) rest
        | .ok (.stopped text) => .ok (stopAt text)
        | .error fault => .error fault

/-- The pieces of a spelled path between its slashes, and the path that they are taken from: the
root, or `here`. -/
def pieces (here : Path) (text : String) : Path × List String :=
  let pieces := Text.splitOn "/" text
  if startsAtRoot text then (⟨.root, []⟩, pieces.drop 1) else (here, pieces)

/-- Resolves the target of a link, as far as links lead into one another no deeper than given. -/
def resolveLink (fs : FileSystem) :
    Nat → Path → String → Links → Except PathFault Resolution
  | 0, _, _, _ => .error .tooDeep
  | depth + 1, here, target, links =>
    let (start, names) := pieces here target
    resolvePieces fs (resolveLink fs depth) start links names

/-- The depth to which links may lead into one another. A relative path on which a link leads above
the root again and again never comes to an end, since it is met under another path every time. -/
def linkDepth : Nat := 989

/-- Resolves a path. -/
def resolve (fs : FileSystem) (p : Path) : Except PathFault Resolution :=
  let (start, names) := pieces ⟨.relative, []⟩ p.text
  resolvePieces fs (resolveLink fs linkDepth) start .empty names

/-- The path that a resolution arrives at, which is made absolute and cleaned up by its text. -/
def Resolution.path : Resolution → Path
  | .done place _ => place.collapse
  | .stopped text => (Path.ofString text).collapse

/-- The canonical form of a path. It is a fault if the system still runs into a loop on it. -/
def canonical (fs : FileSystem) (p : Path) : Except PathFault Path := do
  let place := (← fs.resolve p).path
  match fs.lookup .target place.text with
  | .error .tooManyLinks => .error (.linkLoop place.text)
  | .error (.spelling fault) => .error (.spelling fault)
  | _ => .ok place

end FileSystem

namespace Path

/-- A relative path whose first name starts with a tilde starts at the home directory of the user
whose name follows the tilde, which has to be known. -/
def expandHome (p : Path) : Except PathFault Path :=
  match p.anchor, p.parts with
  | .relative, first :: rest =>
    match first.toList with
    | '~' :: user =>
      match Environment.home? (.ofList user) with
      | some home => .ok { home with parts := home.parts ++ rest }
      | none => .error .noHome
    | _ => .ok p
  | _, _ => .ok p

end Path

/-- The absolute path with all links resolved, taken from `base` when it is relative. -/
def canonicalPath (fs : FileSystem) (path : String) (base : Option String) :
    Except PathFault String := do
  let expanded ← (Path.ofString path).expandHome
  let candidate := match base with
    | some dir => (Path.ofString dir).join expanded
    | none => expanded
  return (← fs.canonical candidate).text

end Autogen
