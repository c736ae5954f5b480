import Autogen.Version

/-!
# Generator tools

The tools that generate code, and where they are found.

## Main definitions

* `Tool` — moc, uic and rcc.
* `ToolBinding` — a tool with its executable, or with the reason why it has none.
* `Graph.bindTool` — the binding of a tool for a target.
-/

namespace Autogen

/-- The generators of code: the meta-object compiler, the user interface compiler and the resource
compiler. -/
inductive Tool where
  | moc
  | uic
  | rcc
deriving DecidableEq, Repr

namespace Tool

/-- The name of a tool. -/
def text : Tool → String
  | moc => "moc"
  | uic => "uic"
  | rcc => "rcc"

/-- The name of a tool in capitals. -/
def capital : Tool → String
  | moc => "MOC"
  | uic => "UIC"
  | rcc => "RCC"

/-- The name of the feature that a tool serves. -/
def feature (t : Tool) : String :=
  "AUTO" ++ t.capital

/-- The tools in their order. -/
def all : List Tool :=
  [moc, uic, rcc]

/-- The tool of a name. -/
def ofText? (name : String) : Option Tool :=
  all.find? fun t => t.text = name

end Tool

/-- Why a tool has no executable. -/
structure ToolFault where
  tool : Tool
  version : String
  target : String
  reason : String
deriving DecidableEq, Repr

/-- The text of a tool fault. -/
def ToolFault.message (f : ToolFault) : String :=
  f.reason ++ " (" ++ f.target ++ ")"

/-- A tool of some version with its executable. -/
structure ToolBinding where
  tool : Tool
  version : String
  executable : String := ""
  fault : Option ToolFault := none
deriving DecidableEq, Repr

/-- Whether a tool was found. -/
def ToolBinding.resolved (b : ToolBinding) : Bool :=
  b.fault.isNone

/-- The binding of a tool that was not found. -/
def ToolBinding.missing (tool : Tool) (version target reason : String) : ToolBinding :=
  { tool, version, fault := some ⟨tool, version, target, reason⟩ }

/-- The binding of a tool for a target, through the imported target that provides it. -/
def Graph.bindTool (g : Graph) (target : String) (tool : Tool) (version : String) : ToolBinding :=
  match QtMajor.ofText? version with
  | none =>
    .missing tool version target
      ("The " ++ tool.feature ++ " feature supports only Qt 4 and Qt 5")
  | some major =>
    let name := major.importTarget tool.text
    match g.findImported? name with
    | some imported => { tool, version, executable := imported.location }
    | none => .missing tool version target (tool.feature ++ ": " ++ name ++ " target not found")

end Autogen
