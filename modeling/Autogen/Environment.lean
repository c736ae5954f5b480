import Autogen.FileSystem.Name

/-!
# The environment

What the planner finds when it starts and never changes: the directory in which it runs, and where
users are at home.

## Main definitions

* `Environment` — the working directory and the home directories.
* `Environment.plain` — an environment in which only the user who runs the planner has a home.
-/

namespace Autogen

/-- The surroundings in which the planner runs. The working directory is given by the names from the
root down, as the system tells them. Home directories are asked for by the names of users; the empty
name is the user who runs the planner. -/
class Environment where
  workingNames : List String
  isSystemName : ∀ name ∈ workingNames, FileSystem.IsSystemName name
  home? : String → Option Path

/-- The planner runs in `/cwd`, at home in `/home/user`, and no other user is known. -/
@[reducible] def Environment.plain : Environment where
  workingNames := ["cwd"]
  isSystemName := by
    intro name hname
    rw [List.mem_singleton.mp hname]
    exact ⟨by decide, by decide, by decide, FileSystem.settled_of_isEncodable (by decide)⟩
  home? user := if user = "" then some ⟨.root, ["home", "user"]⟩ else none

end Autogen
