import Autogen.Descriptor.Basic
import Autogen.Plan.Basic
import Autogen.Text.Order

/-!
# The descriptor of a plan

How a plan is written down for the generation step.

## Main definitions

* `Plan.entries` — the entries that every descriptor has.
* `Plan.configurationEntries` — the entries for configurations that differ from the baseline.
* `Plan.render` — the text of the descriptor.
-/

namespace Autogen

namespace Plan

/-- The spelling of a truth value. -/
def flagText (b : Bool) : String :=
  if b then "TRUE" else "FALSE"

/-- A text made from the settings of a generator, empty if it is not enabled. -/
def ofEnabled {α : Type} (settings : Option α) (text : α → String) : String :=
  match settings with
  | some s => text s
  | none => ""

/-- The entries about the target. -/
def targetEntries (p : Plan) : List Descriptor.Entry :=
  [("AM_BUILD_DIR", p.buildDir),
    ("AM_QT_VERSION_MAJOR", p.qtVersionMajor),
    ("AM_SOURCES", joinList p.classification.sources),
    ("AM_HEADERS", joinList p.classification.headers)]

/-- The entries about moc. -/
def mocEntries (p : Plan) : List Descriptor.Entry :=
  [("AM_MOC_SKIP", ofEnabled p.moc fun _ => joinList p.classification.mocSkip),
    ("AM_QT_MOC_EXECUTABLE", ofEnabled p.moc (·.binding.executable)),
    ("AM_MOC_INCLUDES", ofEnabled p.moc (·.includes.baseline)),
    ("AM_MOC_DEFINITIONS", ofEnabled p.moc (·.definitions.baseline)),
    ("AM_MOC_OPTIONS", ofEnabled p.moc (joinList ·.options)),
    ("AM_MOC_RELAXED_MODE", ofEnabled p.moc (flagText ·.relaxedMode)),
    ("AM_MOC_MACRO_NAMES", ofEnabled p.moc (joinList ·.macroNames)),
    ("AM_MOC_DEPEND_FILTERS", ofEnabled p.moc (joinList ·.dependFilters)),
    ("AM_MOC_PREDEFS_CMD", ofEnabled p.moc (joinList ·.predefsCommand))]

/-- The entries about uic. -/
def uicEntries (p : Plan) : List Descriptor.Entry :=
  [("AM_UIC_SKIP", ofEnabled p.uic fun _ => joinList p.classification.uicSkip),
    ("AM_QT_UIC_EXECUTABLE", ofEnabled p.uic (·.binding.executable)),
    ("AM_UIC_TARGET_OPTIONS", ofEnabled p.uic (·.targetOptions.baseline)),
    ("AM_UIC_SEARCH_PATHS", ofEnabled p.uic (joinList ·.searchPaths)),
    ("AM_UIC_OPTIONS_FILES", ofEnabled p.uic fun u => joinList (u.optionFiles.map (·.path))),
    ("AM_UIC_OPTIONS_OPTIONS",
      ofEnabled p.uic fun u => joinList (u.optionFiles.map (joinNested ·.options)))]

/-- The inputs of a resource file as an element of a list, in braces. -/
def inputGroup (entry : RccEntry) : String :=
  "\x7b" ++ joinNested entry.inputs ++ "\x7d"

/-- The resource files of a plan. -/
def rccFiles (p : Plan) : List RccEntry :=
  match p.rcc with
  | some settings => settings.entries
  | none => []

/-- The resource files that have options. -/
def rccFilesWithOptions (p : Plan) : List RccEntry :=
  p.rccFiles.filter fun entry => !entry.options.isEmpty

/-- The entries about rcc. -/
def rccEntries (p : Plan) : List Descriptor.Entry :=
  [("AM_QT_RCC_EXECUTABLE", ofEnabled p.rcc (·.binding.executable)),
    ("AM_RCC_SOURCES", joinList (p.rccFiles.map (·.path))),
    ("AM_RCC_INPUTS", joinList (p.rccFiles.map inputGroup)),
    ("AM_RCC_OPTIONS_FILES", joinList (p.rccFilesWithOptions.map (·.path))),
    ("AM_RCC_OPTIONS_OPTIONS", joinList (p.rccFilesWithOptions.map (joinNested ·.options)))]

/-- The entries that every descriptor has. -/
def entries (p : Plan) : List Descriptor.Entry :=
  p.targetEntries ++ p.mocEntries ++ p.uicEntries ++ p.rccEntries

/-- The entries for the values of a map by configuration, in the order of the configurations; each
key is a common start and the name of a configuration. -/
def overrideEntries (start : String) (values : OrderedMap String String) :
    List Descriptor.Entry :=
  (Text.sorted values.keys).map fun config =>
    (start ++ "_" ++ config, (values.get? config).getD "")

/-- The entries for configurations, only where a value differs from the baseline. -/
def configurationEntries (p : Plan) : List Descriptor.Entry :=
  overrideEntries "AM_CONFIG_SUFFIX" p.configSuffixes ++
    (match p.moc with
      | some moc =>
        overrideEntries "AM_MOC_DEFINITIONS" moc.definitions.overrides ++
          overrideEntries "AM_MOC_INCLUDES" moc.includes.overrides
      | none => []) ++
    (match p.uic with
      | some uic => overrideEntries "AM_UIC_TARGET_OPTIONS" uic.targetOptions.overrides
      | none => [])

/-- The sections of the descriptor. -/
def sections (p : Plan) : List Descriptor.Section :=
  [⟨"Meta", p.entries⟩, ⟨"Configuration specific options", p.configurationEntries⟩]

/-- The text of the descriptor. -/
def render (p : Plan) : String :=
  Descriptor.format p.sections

end Plan

end Autogen
