import Autogen.Environment

/-!
# Absolute paths

Relative paths are taken from the directory in which the planner runs.

## Main definitions

* `Path.absolute` — a path as told from the root.
* `Path.collapse` — the absolute path without parent names, obtained from the text alone.
* `collapsePath` — the same for texts, with a base directory.
-/

namespace Autogen

variable [Environment]

namespace Path

/-- The directory in which the planner runs. -/
def workingDirectory : Path :=
  ⟨.root, Environment.workingNames⟩

/-- The absolute form of a path, taken from the working directory when it is relative. -/
def absolute (p : Path) : Path :=
  workingDirectory.join p

/-- The absolute path without parent names, by its text alone. -/
def collapse (p : Path) : Path :=
  { p.absolute with parts := collapseOnto [] p.absolute.parts }

end Path

/-- A path made absolute against a base directory and freed of parent names, links or not. -/
def collapsePath (path base : String) : String :=
  ((Path.ofString base).join (Path.ofString path)).collapse.text

end Autogen
