import Autogen.Proofs.Classification.Inputs
import Autogen.Proofs.Descriptor.Lists
import Autogen.Proofs.Outcome
import Autogen.Proofs.Plan.Decode

/-!
# Files with their lists

A descriptor has the files of a generator in one entry and what belongs to each of them in another
one, as lists in the places of the files. Both are read together again.

## Main definitions

* `pairs?` — the files of one entry with the lists of another one.
* `Plan.nestedTexts` — the texts of a plan that are elements of lists inside lists, and their files.
* `Plan.PairsIn` — the files of a plan are read from some entries with what belongs to them.

## Main statements

* `pairs?_of_entries` — what is written in two entries is read together.
* `Graph.pairs_of_plan` — the resource files of a plan with their inputs and options, and its user
  interface files with their options, are read from its entries.
* `Graph.values_of_run` — the entries of a plan are what is read from the descriptor of its run.
* `Graph.pairs_of_run` — the same files and lists are read from the descriptor of a run.
-/

namespace Autogen

/-! ## Reading two entries together -/

/-- The elements of a list inside a list. -/
def readNested (group : String) : List String :=
  splitList group nestedSeparator

/-- The elements of a list in braces. -/
def readInputs (group : String) : List String :=
  readNested (.ofList (group.toList.drop 1).dropLast)

/-- The files of one entry, each with the list in its place in another entry; the entries must have
the same length. -/
def pairs? (values : OrderedMap String String) (filesKey groupsKey : String)
    (read : String → List String) : Option (List (String × List String)) := do
  let files ← values.get? filesKey
  let groups ← values.get? groupsKey
  let paths := splitList files ";"
  let lists := (splitList groups ";").map read
  if paths.length = lists.length then some (paths.zip lists) else none

section Reading

variable {α : Type} {items : List α} {path group : α → String} {list : α → List String}
  {values : OrderedMap String String} {filesKey groupsKey : String} {read : String → List String}

/-- What is written in two entries is read together. -/
theorem pairs?_of_entries (hfiles : values.get? filesKey = some (joinList (items.map path)))
    (hgroups : values.get? groupsKey = some (joinList (items.map group)))
    (hpath : ∀ item ∈ items, path item ≠ "" ∧ listSeparator ∉ (path item).toList)
    (hgroup : ∀ item ∈ items, group item ≠ "" ∧ listSeparator ∉ (group item).toList)
    (hread : ∀ item ∈ items, read (group item) = list item) :
    pairs? values filesKey groupsKey read =
      some (items.map fun item => (path item, list item)) := by
  have hsplit {text : α → String}
      (htext : ∀ item ∈ items, text item ≠ "" ∧ listSeparator ∉ (text item).toList) :
      splitList (joinList (items.map text)) ";" = items.map text := by
    refine splitList_joinList (fun heq => ?_)
      (List.forall_mem_map.mpr fun item hitem => (htext item hitem).2)
    obtain ⟨item, hitem, hempty⟩ := List.mem_map.mp (heq ▸ List.mem_singleton_self "")
    exact (htext item hitem).1 hempty
  have hlists : (items.map group).map read = items.map list := by
    rw [List.map_map]
    exact List.map_congr_left hread
  simp [pairs?, hfiles, hgroups, hsplit hpath, hsplit hgroup, hlists, List.zip_map']

/-- Files are read with their options, if each of them has some. -/
theorem pairs?_options (hfiles : values.get? filesKey = some (joinList (items.map path)))
    (hgroups : values.get? groupsKey =
      some (joinList (items.map fun item => joinNested (list item))))
    (hpath : ∀ item ∈ items, Nestable (path item)) (hgiven : ∀ item ∈ items, list item ≠ [])
    (hlist : ∀ item ∈ items, ∀ option ∈ list item, Nestable option) :
    pairs? values filesKey groupsKey readNested =
      some (items.map fun item => (path item, list item)) :=
  pairs?_of_entries hfiles hgroups
    (fun item hitem => ⟨(hpath item hitem).ne_empty, (hpath item hitem).noSeparator⟩)
    (fun item hitem => ⟨mt (joinNested_eq_empty_iff (hlist item hitem)).mp (hgiven item hitem),
      listSeparator_not_mem_joinNested (hlist item hitem)⟩)
    fun item hitem => splitList_joinNested (hlist item hitem)

end Reading

namespace Plan

variable {p : Plan}

/-- The user interface files with options of a plan. -/
def uicFiles (p : Plan) : List UiOptionsFile :=
  match p.uic with
  | some settings => settings.optionFiles
  | none => []

/-- The entries of a plan by their keys. -/
def values (p : Plan) : OrderedMap String String :=
  .ofList (p.entries ++ p.configurationEntries)

/-- The paths, inputs and options of the resource files and user interface files of a plan. -/
def nestedTexts (p : Plan) : List String :=
  (p.rccFiles.flatMap fun entry => entry.path :: (entry.inputs ++ entry.options)) ++
    p.uicFiles.flatMap fun file => file.path :: file.options

theorem get?_values {key value : String} (h : (key, value) ∈ p.entries) :
    p.values.get? key = some value := by
  rw [OrderedMap.get?_eq_some, values, OrderedMap.toList_ofList p.nodup_keys]
  exact List.mem_append_left _ h

theorem readInputs_inputGroup {entry : RccEntry} (h : ∀ input ∈ entry.inputs, Nestable input) :
    readInputs (inputGroup entry) = entry.inputs := by
  have hdropped :
      ((inputGroup entry).toList.drop 1).dropLast = (joinNested entry.inputs).toList := by
    simp [inputGroup, String.toList_append]
  rw [readInputs, hdropped, String.ofList_toList, readNested, splitList_joinNested h]

/-- A file with texts of its own that can be elements of lists inside lists. -/
theorem nestable_of_rccFiles (h : ∀ s ∈ p.nestedTexts, Nestable s) {entry : RccEntry}
    (hentry : entry ∈ p.rccFiles) :
    Nestable entry.path ∧ (∀ input ∈ entry.inputs, Nestable input) ∧
      ∀ option ∈ entry.options, Nestable option := by
  have htext : ∀ s ∈ entry.path :: (entry.inputs ++ entry.options), Nestable s := fun s hs =>
    h s (List.mem_append_left _ (List.mem_flatMap.mpr ⟨entry, hentry, hs⟩))
  refine ⟨htext _ List.mem_cons_self, fun input hinput => htext input ?_,
    fun option hoption => htext option ?_⟩
  · exact List.mem_cons_of_mem _ (List.mem_append_left _ hinput)
  · exact List.mem_cons_of_mem _ (List.mem_append_right _ hoption)

theorem nestable_of_uicFiles (h : ∀ s ∈ p.nestedTexts, Nestable s) {file : UiOptionsFile}
    (hfile : file ∈ p.uicFiles) :
    Nestable file.path ∧ ∀ option ∈ file.options, Nestable option := by
  have htext : ∀ s ∈ file.path :: file.options, Nestable s := fun s hs =>
    h s (List.mem_append_right _ (List.mem_flatMap.mpr ⟨file, hfile, hs⟩))
  exact ⟨htext _ List.mem_cons_self, fun option hoption =>
    htext option (List.mem_cons_of_mem _ hoption)⟩

/-- The resource files are read with their inputs, those without any included. -/
theorem pairs?_rccInputs (h : ∀ s ∈ p.nestedTexts, Nestable s) :
    pairs? p.values "AM_RCC_SOURCES" "AM_RCC_INPUTS" readInputs =
      some (p.rccFiles.map fun entry => (entry.path, entry.inputs)) := by
  have hfiles : p.values.get? "AM_RCC_SOURCES" = some (joinList (p.rccFiles.map (·.path))) :=
    get?_values (by simp [entries, rccEntries])
  have hgroups : p.values.get? "AM_RCC_INPUTS" = some (joinList (p.rccFiles.map inputGroup)) :=
    get?_values (by simp [entries, rccEntries])
  refine pairs?_of_entries hfiles hgroups (fun entry hentry => ?_) (fun entry hentry => ?_)
    fun entry hentry => ?_
  · obtain ⟨hpath, -, -⟩ := nestable_of_rccFiles h hentry
    exact ⟨hpath.ne_empty, hpath.noSeparator⟩
  · obtain ⟨-, hinputs, -⟩ := nestable_of_rccFiles h hentry
    have hfree := listSeparator_not_mem_joinNested hinputs
    have hchars :
        (inputGroup entry).toList = '\x7b' :: ((joinNested entry.inputs).toList ++ ['\x7d']) := by
      simp [inputGroup, String.toList_append]
    refine ⟨fun hempty => ?_, ?_⟩
    · rw [hempty] at hchars
      cases hchars
    · rw [hchars]
      simpa [listSeparator] using hfree
  · obtain ⟨-, hinputs, -⟩ := nestable_of_rccFiles h hentry
    exact readInputs_inputGroup hinputs

/-- The resource files with options are read with them. -/
theorem pairs?_rccOptions (h : ∀ s ∈ p.nestedTexts, Nestable s) :
    pairs? p.values "AM_RCC_OPTIONS_FILES" "AM_RCC_OPTIONS_OPTIONS" readNested =
      some (p.rccFilesWithOptions.map fun entry => (entry.path, entry.options)) := by
  have hfiles : p.values.get? "AM_RCC_OPTIONS_FILES" =
      some (joinList (p.rccFilesWithOptions.map (·.path))) :=
    get?_values (by simp [entries, rccEntries])
  have hgroups : p.values.get? "AM_RCC_OPTIONS_OPTIONS" =
      some (joinList (p.rccFilesWithOptions.map (joinNested ·.options))) :=
    get?_values (by simp [entries, rccEntries])
  have htexts {entry : RccEntry} (hentry : entry ∈ p.rccFilesWithOptions) :=
    nestable_of_rccFiles h (List.mem_of_mem_filter hentry)
  refine pairs?_options hfiles hgroups (fun entry hentry => (htexts hentry).1)
    (fun entry hentry => ?_)
    fun entry hentry => (htexts hentry).2.2
  simpa using List.of_mem_filter hentry

/-- The user interface files with options are read with them. -/
theorem pairs?_uicOptions (h : ∀ s ∈ p.nestedTexts, Nestable s)
    (hgiven : ∀ file ∈ p.uicFiles, file.options ≠ []) :
    pairs? p.values "AM_UIC_OPTIONS_FILES" "AM_UIC_OPTIONS_OPTIONS" readNested =
      some (p.uicFiles.map fun file => (file.path, file.options)) := by
  have hfiles :
      p.values.get? "AM_UIC_OPTIONS_FILES" = some (joinList (p.uicFiles.map (·.path))) := by
    refine get?_values ?_
    unfold uicFiles
    cases huic : p.uic <;> simp [entries, uicEntries, ofEnabled, huic, joinList, Text.join]
  have hgroups : p.values.get? "AM_UIC_OPTIONS_OPTIONS" =
      some (joinList (p.uicFiles.map (joinNested ·.options))) := by
    refine get?_values ?_
    unfold uicFiles
    cases huic : p.uic <;> simp [entries, uicEntries, ofEnabled, huic, joinList, Text.join]
  exact pairs?_options hfiles hgroups (fun file hfile => (nestable_of_uicFiles h hfile).1) hgiven
    fun file hfile => (nestable_of_uicFiles h hfile).2

/-- The files of a plan, each with its inputs or options, are read from entries. -/
structure PairsIn (p : Plan) (values : OrderedMap String String) : Prop where
  rccInputs : pairs? values "AM_RCC_SOURCES" "AM_RCC_INPUTS" readInputs =
    some (p.rccFiles.map fun entry => (entry.path, entry.inputs))
  rccOptions : pairs? values "AM_RCC_OPTIONS_FILES" "AM_RCC_OPTIONS_OPTIONS" readNested =
    some (p.rccFilesWithOptions.map fun entry => (entry.path, entry.options))
  uicOptions : pairs? values "AM_UIC_OPTIONS_FILES" "AM_UIC_OPTIONS_OPTIONS" readNested =
    some (p.uicFiles.map fun file => (file.path, file.options))

theorem pairsIn_values (h : ∀ s ∈ p.nestedTexts, Nestable s)
    (hgiven : ∀ file ∈ p.uicFiles, file.options ≠ []) : p.PairsIn p.values :=
  ⟨pairs?_rccInputs h, pairs?_rccOptions h, pairs?_uicOptions h hgiven⟩

end Plan

namespace Graph

variable {g : Graph} {fs : FileSystem} {lister : ResourceLister} {t : TargetId}

/-- The user interface files in the settings of uic have options. -/
theorem options_of_examine [Environment] {x : Target} {sources : List SourceFile}
    {ds : Diagnostics} {f : Findings} (h : (g.examine fs x sources ds).2 = .ok f)
    {uic : UicSettings} (huic : f.uic = some uic) :
    ∀ file ∈ uic.optionFiles, file.options ≠ [] := by
  obtain ⟨-, -, -, -, hsettings, warnings, hclassify, -⟩ := findings_of_examine (Prod.ext rfl h)
  obtain ⟨binding, -, rfl⟩ := Option.map_eq_some_iff.mp (hsettings.symm.trans huic)
  exact Classifier.options_of_classify hclassify

theorem options_of_plan [Environment] {p : Plan} (h : (g.plan fs lister t).result = .ok p) :
    ∀ file ∈ p.uicFiles, file.options ≠ [] := by
  obtain ⟨-, findings, found, hexamine, rfl⟩ := findings_of_plan h
  intro file hfile
  unfold Plan.uicFiles at hfile
  split at hfile
  · rename_i uic huic
    exact options_of_examine hexamine huic file hfile
  · cases hfile

/-- In a plan whose files, inputs and options can be elements of lists inside lists, the resource
files with their inputs, the resource files that have options with these, and the user interface
files with their options are read from the entries, in their order. -/
theorem pairs_of_plan [Environment] {p : Plan} (hplan : (g.plan fs lister t).result = .ok p)
    (htexts : ∀ s ∈ p.nestedTexts, Nestable s) :
    pairs? p.values "AM_RCC_SOURCES" "AM_RCC_INPUTS" readInputs =
        some (p.rccFiles.map fun entry => (entry.path, entry.inputs)) ∧
      pairs? p.values "AM_RCC_OPTIONS_FILES" "AM_RCC_OPTIONS_OPTIONS" readNested =
        some (p.rccFilesWithOptions.map fun entry => (entry.path, entry.options)) ∧
      pairs? p.values "AM_UIC_OPTIONS_FILES" "AM_UIC_OPTIONS_OPTIONS" readNested =
        some (p.uicFiles.map fun file => (file.path, file.options)) := by
  obtain ⟨hinputs, hoptions, hforms⟩ := Plan.pairsIn_values htexts (options_of_plan hplan)
  exact ⟨hinputs, hoptions, hforms⟩

/-- Where the descriptor of a run can be read, what is read are the values of its plan. -/
theorem values_of_run [Environment] {r : RunResult} {decoded : OrderedMap String String}
    (hconfigs : ∀ config ∈ g.settings.configurations, ∀ c ∈ config.toList, Descriptor.isKeyChar c)
    (hrun : (g.run fs lister t).result = .ok r)
    (hread : Descriptor.read (g.run fs lister t).files r.descriptor = .ok decoded) :
    decoded = r.plan.values := by
  obtain ⟨hplan, -, hwrite⟩ := run_eq_ok hrun
  have hwritable := (records_of_plan hplan).writable (names_of_declared hconfigs)
  obtain ⟨loc, file, -, hreads⟩ := Descriptor.read_write hwritable hwrite
  rw [hread] at hreads
  split at hreads
  · rw [Except.ok.inj hreads]
    simp [Plan.values, Plan.sections]
  · cases hreads

/-- The files of such a plan are read with their inputs and options from the descriptor of its
run. -/
theorem pairs_of_run [Environment] {r : RunResult} {decoded : OrderedMap String String}
    (hconfigs : ∀ config ∈ g.settings.configurations, ∀ c ∈ config.toList, Descriptor.isKeyChar c)
    (hrun : (g.run fs lister t).result = .ok r) (htexts : ∀ s ∈ r.plan.nestedTexts, Nestable s)
    (hread : Descriptor.read (g.run fs lister t).files r.descriptor = .ok decoded) :
    r.plan.PairsIn decoded := by
  obtain ⟨hplan, -, -⟩ := run_eq_ok hrun
  rw [values_of_run hconfigs hrun hread]
  exact Plan.pairsIn_values htexts (options_of_plan hplan)

attribute [local instance] Environment.plain

/-- A project with two resource files, the first of which has neither inputs nor options, and a user
interface file. The names of the inputs overlap with the separator of lists inside lists. -/
def iconsProject : Graph where
  settings := { sourceDir := "/w/src", binaryDir := "/w/build", qtVersionMajor := some "5" }
  store := {
    sources := [
      { path := "/w/src/made.qrc", generated := true },
      { path := "/w/src/icons.qrc"
        autorccOptions := ["--threshold", "40"]
        resourceInputs := some ["icon@2x.png", "icon@", "LSEP@.png"] },
      { path := "/w/src/dialog@.ui", autouicOptions := ["--tr", "LSEP@"] }]
    targets := [{
      name := "app"
      sourceDir := "/w/src"
      binaryDir := "/w/build"
      properties := { autouic := true, autorcc := true }
      sources := [0, 1, 2] }] }
  targets := OrderedMap.ofList [("app", 0)]
  importedTargets := OrderedMap.ofList
    [("Qt5::uic", ⟨"Qt5::uic", "/opt/uic"⟩), ("Qt5::rcc", ⟨"Qt5::rcc", "/opt/rcc"⟩)]

/-- The options of the second resource file are not taken for those of the first one. -/
theorem pairs_of_plan_iconsProject :
    ∃ p, (iconsProject.plan .empty declaredInputs 0).result = .ok p ∧
    (∀ s ∈ p.nestedTexts, Nestable s) ∧
    pairs? p.values "AM_RCC_SOURCES" "AM_RCC_INPUTS" readInputs =
      some [("/w/src/made.qrc", []),
        ("/w/src/icons.qrc", ["/w/src/icon@2x.png", "/w/src/icon@", "/w/src/LSEP@.png"])] ∧
    pairs? p.values "AM_RCC_OPTIONS_FILES" "AM_RCC_OPTIONS_OPTIONS" readNested =
      some [("/w/src/icons.qrc", ["--threshold", "40"])] ∧
    pairs? p.values "AM_UIC_OPTIONS_FILES" "AM_UIC_OPTIONS_OPTIONS" readNested =
      some [("/w/src/dialog@.ui", ["--tr", "LSEP@"])] := by
  have hplanned : ∃ p, (iconsProject.plan .empty declaredInputs 0).result = .ok p ∧
      (∀ s ∈ p.nestedTexts, Nestable s) ∧
      p.rccFiles.map (fun entry => (entry.path, entry.inputs)) = [("/w/src/made.qrc", []),
        ("/w/src/icons.qrc", ["/w/src/icon@2x.png", "/w/src/icon@", "/w/src/LSEP@.png"])] ∧
      p.rccFilesWithOptions.map (fun entry => (entry.path, entry.options)) =
        [("/w/src/icons.qrc", ["--threshold", "40"])] ∧
      p.uicFiles.map (fun file => (file.path, file.options)) =
        [("/w/src/dialog@.ui", ["--tr", "LSEP@"])] := by
    decide +kernel
  obtain ⟨p, hplan, htexts, hinputs, hoptions, hforms⟩ := hplanned
  obtain ⟨hreadInputs, hreadOptions, hreadForms⟩ := pairs_of_plan hplan htexts
  rw [hinputs] at hreadInputs
  rw [hoptions] at hreadOptions
  rw [hforms] at hreadForms
  exact ⟨p, hplan, htexts, hreadInputs, hreadOptions, hreadForms⟩

end Graph

end Autogen
