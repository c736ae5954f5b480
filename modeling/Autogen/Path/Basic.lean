import Autogen.Text.Split

/-!
# Paths

Paths as a sequence of names below an anchor. Empty names and the name of the current directory
say nothing and are dropped when a path is read; the name of the parent directory is kept, because
what it means depends on the links on the way.

## Main definitions

* `Path` — a path, and `Path.ofString`, `Path.text` to read and write it.
* `Path.join`, `Path.parent`, `Path.stem`, `Path.suffix`, `Path.relativeTo?` — its parts.
* `Path.collapseOnto` — names without parent names.
-/

namespace Autogen

/-- Where a path starts: nowhere in particular, at the root, or at the root written with two
slashes, which some systems keep apart from the root. -/
inductive Path.Anchor where
  | relative
  | root
  | doubleRoot
deriving DecidableEq, Repr, Inhabited

/-- A path: an anchor and the names below it. -/
structure Path where
  anchor : Path.Anchor
  parts : List String
deriving DecidableEq, Repr, Inhabited

namespace Path

/-- The anchor of a path by its first characters; three slashes or more count as one. -/
def Anchor.ofChars : List Char → Anchor
  | '/' :: '/' :: '/' :: _ => .root
  | '/' :: '/' :: _ => .doubleRoot
  | '/' :: _ => .root
  | _ => .relative

/-- The spelling of an anchor. -/
def Anchor.text : Anchor → String
  | .relative => ""
  | .root => "/"
  | .doubleRoot => "//"

/-- A name that a path keeps. -/
def isName (part : String) : Bool :=
  part != "" && part != "."

/-- The path with the given spelling. -/
def ofString (s : String) : Path where
  anchor := Anchor.ofChars s.toList
  parts := (Text.splitOn "/" s).filter isName

/-- The spelling of a path; the empty relative path is written as the current directory. -/
def text (p : Path) : String :=
  match p.anchor, p.parts with
  | .relative, [] => "."
  | anchor, parts => anchor.text ++ Text.join "/" parts

/-- Whether the path starts at a root. -/
def isAbsolute (p : Path) : Bool :=
  p.anchor != .relative

/-- The path `p` as seen from the directory `base`. -/
def join (base p : Path) : Path :=
  if p.isAbsolute then p else { base with parts := base.parts ++ p.parts }

/-- The path without its last name. -/
def parent (p : Path) : Path :=
  { p with parts := p.parts.dropLast }

/-- The last name of a path. -/
def name (p : Path) : String :=
  p.parts.getLast?.getD ""

/-- A name cut before its last dot, if there is something on either side of it. -/
def splitName (name : List Char) : List Char × List Char :=
  let extension := (name.reverse.takeWhile (· != '.')).reverse
  match name.reverse.dropWhile (· != '.') with
  | '.' :: before =>
    if before.isEmpty || extension.isEmpty then (name, [])
    else (before.reverse, '.' :: extension)
  | _ => (name, [])

/-- The last name without its suffix. -/
def stem (p : Path) : String :=
  .ofList (splitName p.name.toList).1

/-- The last dot of the last name and what follows it, if the dot is neither its first nor its
last character. -/
def suffix (p : Path) : String :=
  .ofList (splitName p.name.toList).2

/-- Whether `root` is the path or one of the directories above it. -/
def isUnder (root p : Path) : Bool :=
  root.anchor == p.anchor && root.parts.isPrefixOf p.parts

/-- The path as seen from a directory above it. -/
def relativeTo? (root p : Path) : Option Path :=
  if root.isUnder p then some ⟨.relative, p.parts.drop root.parts.length⟩ else none

/-- The names left when every parent name removes the name before it. `above` holds the names
read so far, the last one first; a parent name at the root removes nothing. -/
def collapseOnto (above : List String) : List String → List String
  | [] => above.reverse
  | part :: rest => collapseOnto (if part == ".." then above.tail else part :: above) rest

end Path

end Autogen
