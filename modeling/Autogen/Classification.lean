import Autogen.FileSystem.Canonical
import Autogen.OrderedMap
import Autogen.OrderedSet
import Autogen.Policy
import Autogen.Source

/-!
# Classification of sources

Which sources of a target moc and uic scan, which they skip, and which rcc packs.

## Main definitions

* `Classification` — the inputs of the generators.
* `Classifier` — what decides about sources: the enabled generators and the policy.
* `Classifier.classify` — the inputs among some sources, with the warnings on the way.
-/

namespace Autogen

/-- A resource file with its options and, where the project declares them, its inputs. -/
structure Resource where
  path : String
  generated : Bool
  options : List String := []
  declaredInputs : Option (List String) := none
deriving DecidableEq, Repr

/-- A user interface file with options of its own. -/
structure UiOptionsFile where
  path : String
  options : List String
deriving DecidableEq, Repr

/-- The inputs of the generators among the sources of a target, by canonical path. -/
structure Classification where
  sources : List String := []
  headers : List String := []
  mocSkip : List String := []
  uicSkip : List String := []
  generatedScanFiles : List String := []
  resources : List Resource := []
  uiOptionFiles : List UiOptionsFile := []
deriving DecidableEq, Repr

/-- The enabled generators, and the policy for generated sources. -/
structure Classifier where
  moc : Bool
  uic : Bool
  rcc : Bool
  policy : GeneratedFilePolicy
deriving DecidableEq

namespace Classifier

variable [Environment]

/-- What was found in the sources looked at so far. -/
structure Tally where
  sources : OrderedSet String := .empty
  headers : OrderedSet String := .empty
  mocSkip : OrderedSet String := .empty
  uicSkip : OrderedSet String := .empty
  generatedScan : OrderedSet String := .empty
  resources : OrderedMap String Resource := .empty
  uiCandidates : OrderedMap String (List String) := .empty
  warnings : List String := []

/-- Whether moc passes over a source. -/
def skipsMoc (s : SourceFile) : Bool :=
  s.skipAutogen || s.skipAutomoc

/-- Whether uic passes over a source. -/
def skipsUic (s : SourceFile) : Bool :=
  s.skipAutogen || s.skipAutouic

/-- Whether rcc passes over a source. -/
def skipsRcc (s : SourceFile) : Bool :=
  s.skipAutogen || s.skipAutorcc

/-- Whether an enabled generator scans a source. -/
def scans (c : Classifier) (s : SourceFile) : Bool :=
  (c.moc && !skipsMoc s) || (c.uic && !skipsUic s)

/-- The warning about a generated source that the policy leaves out. -/
def ignoredWarning (path : String) : String :=
  "AUTOMOC/AUTOUIC: Ignoring GENERATED source file:\n  \"" ++ path ++
    "\"\nSet the generated file policy to NEW to process GENERATED sources."

/-- The value for a key that has none yet. -/
def giveFirst {α : Type} (m : OrderedMap String α) (key : String) (value : α) :
    OrderedMap String α :=
  if m.contains key then m else m.insert key value

/-- Takes note of a resource file; the first entry for a path counts. -/
def noteResource (c : Classifier) (t : Tally) (s : SourceFile) (path : String) : Tally :=
  if !c.rcc || skipsRcc s then t
  else { t with
    resources := giveFirst t.resources path
      ⟨path, s.generated, s.autorccOptions, s.resourceInputs⟩ }

/-- Takes note of the generators that pass over a file. -/
def noteSkips (t : Tally) (s : SourceFile) (path : String) : Tally :=
  { t with
    mocSkip := if skipsMoc s then t.mocSkip.insert path else t.mocSkip
    uicSkip := if skipsUic s then t.uicSkip.insert path else t.uicSkip }

/-- Takes note of a user interface file; its options are those of its first entry with any. -/
def noteUi (t : Tally) (s : SourceFile) (path : String) : Tally :=
  if s.autouicOptions.isEmpty then t
  else { t with uiCandidates := giveFirst t.uiCandidates path s.autouicOptions }

/-- Takes note of a code or header file that is to be scanned. -/
def noteScanned (t : Tally) (s : SourceFile) (path : String) : Tally :=
  if s.fileFormat = .code then { t with sources := t.sources.insert path }
  else { t with headers := t.headers.insert path }

/-- Takes note of a code or header file, which is scanned if a generator does not pass over it
and, where it is generated, the policy accepts that. -/
def noteScannable (c : Classifier) (t : Tally) (s : SourceFile) (path : String) : Tally :=
  if !c.scans s then t
  else if s.generated then
    match c.policy.decision with
    | .accept => noteScanned { t with generatedScan := t.generatedScan.insert path } s path
    | .reject => t
    | .rejectWithWarning => { t with warnings := t.warnings ++ [ignoredWarning path] }
  else noteScanned t s path

/-- Whether a resource file needs its canonical path. -/
def isWanted (c : Classifier) (s : SourceFile) : Bool :=
  match s.fileFormat with
  | .resource => c.rcc && !skipsRcc s
  | .other => false
  | _ => true

/-- Takes note of a file by its canonical path. -/
def note (c : Classifier) (t : Tally) (s : SourceFile) (path : String) : Tally :=
  match s.fileFormat with
  | .resource => noteResource c t s path
  | .ui => noteUi (noteSkips t s path) s path
  | .code | .header => noteScannable c (noteSkips t s path) s path
  | .other => t

/-- Looks at one source. What an earlier plan generates is never an input. -/
def look (c : Classifier) (fs : FileSystem) (t : Tally) (s : SourceFile) :
    Except PathFault Tally :=
  if s.autogenOutput || !c.isWanted s then .ok t
  else
    match canonicalPath fs s.path none with
    | .ok path => .ok (c.note t s path)
    | .error fault => .error fault

/-- The user interface files that uic does not pass over, with their options. -/
def uiOptionFiles (c : Classifier) (t : Tally) : List UiOptionsFile :=
  if c.uic then
    (t.uiCandidates.toList.filter fun pair => !t.uicSkip.contains pair.1).map
      fun pair => ⟨pair.1, pair.2⟩
  else []

/-- The classification that a tally of all sources amounts to. -/
def conclude (c : Classifier) (t : Tally) : Classification where
  sources := t.sources.toList
  headers := t.headers.toList
  mocSkip := t.mocSkip.toList
  uicSkip := t.uicSkip.toList
  generatedScanFiles := t.generatedScan.toList
  resources := t.resources.values
  uiOptionFiles := c.uiOptionFiles t

/-- The inputs of the generators among some sources, and the warnings about generated sources that
the policy leaves out. -/
def classify (c : Classifier) (fs : FileSystem) (sources : List SourceFile) :
    Except PathFault (Classification × List String) := do
  let tally ← sources.foldlM (c.look fs) {}
  return (c.conclude tally, tally.warnings)

end Classifier

end Autogen
