import Autogen.Classification
import Autogen.ConfigDiff
import Autogen.Tool

/-!
# Plans

Everything that is planned for one target.

## Main definitions

* `MocSettings`, `UicSettings`, `RccSettings` — the settings of the generators.
* `GeneratedFile` — a file that a generator writes.
* `Plan` — the plan of a target.
-/

namespace Autogen

/-- The settings of moc for a target. -/
structure MocSettings where
  binding : ToolBinding
  includes : ConfigDiff
  definitions : ConfigDiff
  options : List String
  relaxedMode : Bool
  macroNames : List String
  dependFilters : List String
  predefsCommand : List String
deriving DecidableEq

/-- The settings of uic for a target. -/
structure UicSettings where
  binding : ToolBinding
  targetOptions : ConfigDiff
  searchPaths : List String
  optionFiles : List UiOptionsFile
deriving DecidableEq

/-- A resource file with the file that is generated for it, its inputs and its options. -/
structure RccEntry where
  path : String
  generated : Bool
  output : String
  inputs : List String
  options : List String
deriving DecidableEq, Repr

/-- The settings of rcc for a target. -/
structure RccSettings where
  binding : ToolBinding
  entries : List RccEntry
deriving DecidableEq

/-- A file that a generator writes. -/
structure GeneratedFile where
  path : String
  tool : Tool
deriving DecidableEq, Repr

/-- Everything that is planned for a target. The settings of a generator that is not enabled are
missing. -/
structure Plan where
  targetName : String
  autogenTargetName : String
  buildDir : String
  filesDir : String
  infoFile : String
  workingDirectory : String
  includeDirectory : Option String
  qtVersionMajor : String
  qtVersionMinor : String
  multiConfig : Bool
  baselineConfig : String
  configurations : List String
  classification : Classification
  moc : Option MocSettings
  uic : Option UicSettings
  rcc : Option RccSettings
  dependencies : List String
  generatedFiles : List GeneratedFile
  configSuffixes : OrderedMap String String
deriving DecidableEq

namespace Plan

/-- The enabled generators in their order. -/
def enabledTools (p : Plan) : List Tool :=
  (if p.moc.isSome then [.moc] else []) ++ (if p.uic.isSome then [.uic] else []) ++
    (if p.rcc.isSome then [.rcc] else [])

/-- The bindings of the enabled generators in their order. -/
def bindings (p : Plan) : List ToolBinding :=
  (p.moc.map (·.binding)).toList ++ (p.uic.map (·.binding)).toList ++
    (p.rcc.map (·.binding)).toList

end Plan

end Autogen
