import Autogen.Proofs.Config.ListText
import Autogen.Proofs.Descriptor.Grammar
import Autogen.Proofs.Descriptor.Lists
import Autogen.Proofs.Plan.Outputs
import Autogen.Proofs.Project.Description

/-!
# Lists in the descriptor of a run

A list is written down with separators between its elements, and cut at all separators when it is
read. The settings of a project can hold elements with separators in them, for which there is a
spelling of their own. Such elements are found in pieces, all other lists are found as they were.

## Main definitions

* `flatList?` — the list under a key of a descriptor.
* `FindsList` — a list that is found up to the separators in its elements.
* `Target.flatLists` — the lists that the plan of a target is made from, by their keys.

## Main statements

* `FindsList.whole_of_text` — how a list is spelled that is found as it was.
* `Plan.get?_of_parse_render` — the entries that every descriptor has are read, whatever the
  configurations are called, as long as their names are on one line.
* `Graph.joined_of_plan` — the lists of a target are entries of its plan.
* `Graph.flatLists_of_run` — what is found in the descriptor of a run, and when there is one to
  read.
-/

namespace Autogen

/-- The list under a key of a descriptor. -/
def flatList? (decoded : OrderedMap String String) (key : String) : Option (List String) :=
  (decoded.get? key).map (splitList · ";")

/-- A list is found in pieces where separators are in its elements, and as it was exactly if there
are none. -/
structure FindsList (decoded : OrderedMap String String) (key : String) (items : List String) :
    Prop where
  pieces : flatList? decoded key = some (items.flatMap (Text.splitOn ";"))
  whole : flatList? decoded key = some items ↔ ∀ item ∈ items, listSeparator ∉ item.toList

theorem FindsList.of_get? {decoded : OrderedMap String String} {key : String} {items : List String}
    (hget : decoded.get? key = some (joinList items)) (hfilled : "" ∉ items) :
    FindsList decoded key items := by
  have hitems : items ≠ [""] := by
    rintro rfl
    exact hfilled (List.mem_singleton_self "")
  have hlist : flatList? decoded key = some (splitList (joinList items) ";") := by
    rw [flatList?, hget, Option.map_some]
  refine ⟨by rw [hlist, splitList_joinList_eq_flatMap hitems], ?_⟩
  rw [hlist, Option.some.injEq, splitList_joinList_eq_iff hitems]

/-- A list that a project spells as one text is found as it was exactly if it is spelled without
separators behind backslashes. -/
theorem FindsList.whole_of_text {decoded : OrderedMap String String} {key text : String}
    (h : FindsList decoded key (expandList text)) :
    flatList? decoded key = some (expandList text) ↔ ¬ ['\\', listSeparator] <:+: text.toList :=
  h.whole.trans separator_not_mem_expandList

namespace Target

variable {x : Target} {c : Classification} {baseline : String}

/-- The lists that the plan of a target is made from, by the keys that they are written down
with. -/
def flatLists [Environment] (x : Target) (c : Classification) (baseline : String) :
    List (String × List String) :=
  [("AM_SOURCES", c.sources), ("AM_HEADERS", c.headers)] ++
    (if x.properties.automoc then
      [("AM_MOC_OPTIONS", x.properties.automocMocOptions),
        ("AM_MOC_MACRO_NAMES", x.properties.automocMacroNames),
        ("AM_MOC_DEPEND_FILTERS", x.properties.automocDependFilters),
        ("AM_MOC_DEFINITIONS", x.compileDefinitionsFor baseline)]
    else []) ++
    if x.properties.autouic then
      [("AM_UIC_SEARCH_PATHS", x.properties.autouicSearchPaths.map fun path =>
        collapsePath path x.sourceDir)]
    else []

/-- What holds of the lists of a target. -/
theorem forall_mem_flatLists [Environment] (P : String → List String → Prop) :
    (∀ list ∈ x.flatLists c baseline, P list.1 list.2) ↔
      P "AM_SOURCES" c.sources ∧ P "AM_HEADERS" c.headers ∧
        (x.properties.automoc = true →
          P "AM_MOC_OPTIONS" x.properties.automocMocOptions ∧
          P "AM_MOC_MACRO_NAMES" x.properties.automocMacroNames ∧
          P "AM_MOC_DEPEND_FILTERS" x.properties.automocDependFilters ∧
          P "AM_MOC_DEFINITIONS" (x.compileDefinitionsFor baseline)) ∧
        (x.properties.autouic = true → P "AM_UIC_SEARCH_PATHS"
          (x.properties.autouicSearchPaths.map fun path => collapsePath path x.sourceDir)) := by
  unfold flatLists
  cases x.properties.automoc <;> cases x.properties.autouic <;> simp [and_assoc]

theorem mem_compileDefinitionsFor {definition config : String} :
    definition ∈ x.compileDefinitionsFor config ↔ definition ∈ x.compileDefinitions ∨
      definition ∈ (x.configCompileDefinitions.get? config).getD [] := by
  rw [compileDefinitionsFor, Text.sortedDistinct, Text.sorted,
    (List.mergeSort_perm _ Text.precedes).mem_iff, List.mem_eraseDups, List.mem_append]

/-- A target in order has no empty texts in its lists. -/
theorem Sound.filled [Environment] (h : x.Sound) (hscanned : "" ∉ c.scanned) :
    ∀ list ∈ x.flatLists c baseline, "" ∉ list.2 := by
  obtain ⟨hsources, hheaders, -⟩ : "" ∉ c.sources ∧ "" ∉ c.headers ∧ "" ∉ c.generatedScanFiles := by
    simpa [Classification.scanned] using hscanned
  have hproperty {list : List String} (hlist : list ∈ x.properties.lists) : "" ∉ list :=
    h.lists list (by simp [Target.lists, hlist])
  refine (forall_mem_flatLists fun _ list => "" ∉ list).mpr
    ⟨hsources, hheaders, fun _ => ⟨?_, ?_, ?_, fun hmem => ?_⟩, fun _ hmem => ?_⟩
  · exact hproperty (by simp [TargetProperties.lists])
  · exact hproperty (by simp [TargetProperties.lists])
  · exact hproperty (by simp [TargetProperties.lists])
  · rcases mem_compileDefinitionsFor.mp hmem with hcommon | hown
    · exact h.lists x.compileDefinitions (by simp [Target.lists]) hcommon
    · cases hget : x.configCompileDefinitions.get? baseline with
      | none =>
        rw [hget] at hown
        cases hown
      | some definitions =>
        rw [hget] at hown
        have hvalue : definitions ∈ x.configCompileDefinitions.values :=
          List.mem_map_of_mem (OrderedMap.get?_eq_some.mp hget)
        exact h.lists definitions (by simp [Target.lists, hvalue]) hown
  · obtain ⟨path, -, hempty⟩ := List.mem_map.mp hmem
    exact (isClean_collapsePath path x.sourceDir).ne_empty hempty

end Target

namespace Plan

variable {p : Plan}

theorem lists_of_moc {moc : MocSettings} (h : p.moc = some moc) :
    ("AM_MOC_OPTIONS", joinList moc.options) ∈ p.entries ∧
      ("AM_MOC_MACRO_NAMES", joinList moc.macroNames) ∈ p.entries ∧
      ("AM_MOC_DEPEND_FILTERS", joinList moc.dependFilters) ∈ p.entries ∧
      ("AM_MOC_DEFINITIONS", moc.definitions.baseline) ∈ p.entries := by
  simp [entries, mocEntries, ofEnabled, h]

theorem lists_of_uic {uic : UicSettings} (h : p.uic = some uic) :
    ("AM_UIC_SEARCH_PATHS", joinList uic.searchPaths) ∈ p.entries := by
  simp [entries, uicEntries, ofEnabled, h]

/-- Neither the titles nor the keys of a plan have line ends in them if the names of its
configurations have none. -/
theorem freeOf_sections {c : Char} (hc : c = '\n' ∨ c = '\r')
    (hnames : ∀ family ∈ p.families, ∀ config ∈ family.2.keys, c ∉ config.toList) :
    ∀ s ∈ p.sections, s.FreeOf c := by
  intro s hs
  rcases List.mem_cons.mp hs with rfl | hs
  · have htitle : c ∉ "Meta".toList := by rcases hc with rfl | rfl <;> decide
    refine ⟨htitle, fun entry hentry => (isKey_of_mem_baseKeys _ ?_).not_mem hc⟩
    rw [← keys_entries p]
    exact List.mem_map_of_mem hentry
  · obtain rfl := List.mem_singleton.mp hs
    have htitle : c ∉ "Configuration specific options".toList := by
      rcases hc with rfl | rfl <;> decide
    refine ⟨htitle, fun entry hentry hmem => ?_⟩
    obtain ⟨family, hfamily, config, value, hget, rfl⟩ := mem_configurationEntries.mp hentry
    have hstart := (isKey_of_mem_starts family.1 (mem_starts hfamily)).not_mem hc
    rw [toList_configKey, List.mem_append] at hmem
    refine hmem.elim hstart (hnames family hfamily config ?_)
    exact List.mem_map_of_mem (OrderedMap.get?_eq_some.mp hget)

/-- The entries that every descriptor has are read from a text that can be read, although keys that
end in the names of configurations need not be keys, and may be taken for more than that. -/
theorem get?_of_parse_render (hfree : ∀ s ∈ p.sections, s.FreeOf '\n')
    {decoded : OrderedMap String String} (h : Descriptor.parse p.render = .ok decoded)
    {key value : String} (hentry : (key, value) ∈ p.entries) :
    decoded.get? key = some value := by
  have hknown {entry : Descriptor.Entry} (hentry : entry ∈ p.entries) : entry.1 ∈ baseKeys := by
    rw [← keys_entries p]
    exact List.mem_map_of_mem hentry
  have hfirst : Descriptor.Section.Legible ⟨"Meta", p.entries⟩ :=
    ⟨(hfree _ List.mem_cons_self).title, fun entry hentry =>
      isKey_of_mem_baseKeys _ (hknown hentry)⟩
  have hnodup : (p.entries.map Prod.fst).Nodup := by
    rw [keys_entries]
    decide +kernel
  have hsecond := hfree _ (List.mem_cons_of_mem _ (List.mem_singleton_self _))
  refine Descriptor.get?_of_parse_format hfirst hnodup hsecond (fun entry hentry => ?_) h hentry
  obtain ⟨family, hfamily, config, value, hget, rfl⟩ := mem_configurationEntries.mp hentry
  have hstart := mem_starts hfamily
  exact ⟨family.1 ++ "_", prefix_configKey family.1 config, (isKey_of_mem_starts family.1 hstart).2,
    fun known hmem => not_prefix_of_mem_baseKeys family.1 hstart _ (hknown hmem)⟩

end Plan

namespace Graph

variable {g : Graph} {fs : FileSystem} {lister : ResourceLister} {t : TargetId}

/-- The lists of a target are entries of its plan. -/
theorem joined_of_plan [Environment] {p : Plan} (h : (g.plan fs lister t).result = .ok p) :
    ∀ list ∈ (g.target t).flatLists p.classification g.settings.buildType,
      (list.1, joinList list.2) ∈ p.entries := by
  -- The target is planned with its directory of generated headers, which is in none of the lists.
  have hlists : ((g.included t).target t).flatLists p.classification g.settings.buildType =
      (g.target t).flatLists p.classification g.settings.buildType :=
    part_included (fun x => x.flatLists p.classification g.settings.buildType) (fun _ _ => rfl) t
  rw [← hlists]
  obtain ⟨-, findings, found, hexamine, hp⟩ := findings_of_plan h
  have hmoc : p.moc = findings.moc := by
    rw [hp]
    rfl
  have huic : p.uic = findings.uic := by
    rw [hp]
    rfl
  refine (Target.forall_mem_flatLists fun key list => (key, joinList list) ∈ p.entries).mpr
    ⟨?_, ?_, fun henabled => ?_, fun henabled => ?_⟩
  · simp [Plan.entries, Plan.targetEntries]
  · simp [Plan.entries, Plan.targetEntries]
  · obtain ⟨moc, hsome⟩ := Option.isSome_iff_exists.mp ((moc_of_examine hexamine).1 henabled)
    obtain ⟨binding, major, minor, hsettings⟩ := (moc_of_examine hexamine).2 moc hsome
    obtain ⟨command, rfl⟩ := mocSettings_eq_ok hsettings
    exact Plan.lists_of_moc (hmoc.trans hsome)
  · obtain ⟨uic, hsome⟩ := Option.isSome_iff_exists.mp ((uic_of_examine hexamine).1 henabled)
    obtain ⟨binding, rfl⟩ := (uic_of_examine hexamine).2 uic hsome
    exact Plan.lists_of_uic (huic.trans hsome)

/-- What a plan scans has a name. -/
theorem filled_scanned [Environment] {p : Plan} (h : (g.plan fs lister t).result = .ok p) :
    "" ∉ p.classification.scanned := by
  intro hmem
  obtain ⟨-, findings, found, hexamine, rfl⟩ := findings_of_plan h
  obtain ⟨-, -, -, -, -, warnings, hclassify, -⟩ := findings_of_examine (Prod.ext rfl hexamine)
  obtain ⟨s, -, -, hpath⟩ := Classifier.exists_of_mem_scanned hclassify hmem
  have hroot := FileSystem.startsAtRoot_canonicalPath hpath
  exact absurd hroot (by decide)

/-- The descriptor of a run is read back if the configurations have names of key characters. -/
theorem readsBack_of_run [Environment]
    (hkeys : ∀ config ∈ g.settings.configurations, ∀ c ∈ config.toList, Descriptor.isKeyChar c)
    {r : RunResult} (hrun : (g.run fs lister t).result = .ok r) :
    Descriptor.ReadsBack fs (g.run fs lister t).files r.descriptor := by
  obtain ⟨hplan, -, hwrite⟩ := run_eq_ok hrun
  exact Descriptor.readsBack_of_write ((records_of_plan hplan).writable (names_of_declared hkeys))
    hwrite

/-- The entries that every descriptor has are read from the descriptor of a run, if it can be
read. -/
theorem get?_of_run [Environment]
    (hnames : ∀ config ∈ g.settings.configurations, '\n' ∉ config.toList ∧ '\r' ∉ config.toList)
    {r : RunResult} (hrun : (g.run fs lister t).result = .ok r) {decoded : OrderedMap String String}
    (hread : Descriptor.read (g.run fs lister t).files r.descriptor = .ok decoded) :
    ∀ entry ∈ r.plan.entries, decoded.get? entry.1 = some entry.2 := by
  obtain ⟨hplan, -, hwrite⟩ := run_eq_ok hrun
  have hconfigs := (records_of_plan hplan).mem_configs
  have hfree {c : Char} (hc : c = '\n' ∨ c = '\r') : ∀ s ∈ r.plan.sections, s.FreeOf c := by
    have hdeclared : ∀ config ∈ g.settings.configurations, ∀ d ∈ config.toList, d ≠ c := by
      rintro config hconfig d hd rfl
      rcases hc with rfl | rfl
      · exact (hnames config hconfig).1 hd
      · exact (hnames config hconfig).2 hd
    refine Plan.freeOf_sections hc fun family hfamily config hconfig hmem => ?_
    exact names_of_declared hdeclared config (hconfigs family hfamily config hconfig) c hmem rfl
  obtain ⟨loc, file, -, hreads⟩ :=
    Descriptor.read_written (Descriptor.not_mem_format (hfree (.inr rfl))) hwrite
  rw [hread] at hreads
  split at hreads
  · have hparsed := mapError_eq_ok.mp hreads.symm
    exact fun entry hentry => Plan.get?_of_parse_render (hfree (.inl rfl)) hparsed hentry
  · cases hreads

/-- What is found in the descriptor of a run. In a project without line ends in the names of its
configurations, whatever was planned and run before, the lists of a target are found under their
keys: those with separators in their elements in pieces, and those without any as they were. If the
names consist of key characters, there is a descriptor to read. -/
theorem flatLists_of_run [Environment] {fields : Fields} {start : Graph}
    (hmapping : ofMapping fields = .ok start) {name : String}
    (ht : start.targets.get? name = some t)
    (hnames : ∀ config ∈ start.settings.configurations, '\n' ∉ config.toList ∧ '\r' ∉ config.toList)
    {tree : FileSystem} (hcalls : Relation.ReflTransGen PlanningCall (start, tree) (g, fs))
    {r : RunResult} (hrun : (g.run fs lister t).result = .ok r) :
    (∀ decoded, Descriptor.read (g.run fs lister t).files r.descriptor = .ok decoded →
        ∀ list ∈ (start.target t).flatLists r.plan.classification start.settings.buildType,
          FindsList decoded list.1 list.2) ∧
      ((∀ config ∈ start.settings.configurations, ∀ c ∈ config.toList, Descriptor.isKeyChar c) →
        Descriptor.ReadsBack fs (g.run fs lister t).files r.descriptor) := by
  have hloaded := loaded_of_mapping hmapping
  obtain ⟨hgrows, -⟩ := grows_of_calls hloaded.wellFormed hloaded.fresh hcalls
  have hsettings : g.settings = start.settings := hgrows.settings
  obtain ⟨hplan, -, -⟩ := run_eq_ok hrun
  refine ⟨fun decoded hread list hlist => ?_, fun hkeys =>
    readsBack_of_run (hsettings ▸ hkeys) hrun⟩
  have hfilled := (sound_of_mapping hmapping ht).filled (filled_scanned hplan) list hlist
  have hsame : (g.target t).flatLists r.plan.classification g.settings.buildType =
      (start.target t).flatLists r.plan.classification start.settings.buildType := by
    rw [hsettings]
    exact hgrows.part (fun x => x.flatLists r.plan.classification start.settings.buildType)
      (fun _ => rfl) t
  have hjoined := joined_of_plan hplan list (hsame ▸ hlist)
  exact .of_get? (get?_of_run (hsettings ▸ hnames) hrun hread _ hjoined) hfilled

attribute [local instance] Environment.plain

/-- A project with an option and a header that have separators in them. -/
def optionsProject : Fields :=
  [(.string "project", .map [(.string "source_dir", .string "/w/src"),
      (.string "binary_dir", .string "/w/build"), (.string "qt_version_major", .string "5"),
      (.string "configurations", .list [.string "Debug"])]),
    (.string "targets", .map [(.string "app", .map [(.string "automoc", .bool true),
      (.string "automoc_moc_options", .string "-DX=a\\;b"),
      (.string "automoc_macro_names", .string "A_OBJECT;B_OBJECT"),
      (.string "sources", .list [.string "a.cpp", .string "b.cpp", .string "c;d.h"])])])]

theorem exists_optionsProject : ∃ g, ofMapping optionsProject = .ok g ∧
    g.settings.configurations = ["Debug"] ∧ g.targets.get? "app" = some 0 ∧
    (g.target 0).properties = {
      automoc := true
      automocMocOptions := ["-DX=a;b"]
      automocMacroNames := expandList "A_OBJECT;B_OBJECT" } ∧
    ∃ p, (g.plan (describedTree 0o644) declaredInputs 0).result = .ok p ∧
      g.Achievable (describedTree 0o644) p ∧
      p.classification.sources = ["/w/src/a.cpp", "/w/src/b.cpp"] ∧
      p.classification.headers = ["/w/src/c;d.h"] := by
  decide +kernel

/-- The descriptor of the project is there to be read. -/
theorem reads_optionsProject : ∃ g r decoded, ofMapping optionsProject = .ok g ∧
    (∀ config ∈ g.settings.configurations, '\n' ∉ config.toList ∧ '\r' ∉ config.toList) ∧
    g.targets.get? "app" = some 0 ∧
    (g.target 0).properties = {
      automoc := true
      automocMocOptions := ["-DX=a;b"]
      automocMacroNames := expandList "A_OBJECT;B_OBJECT" } ∧
    (g.run (describedTree 0o644) declaredInputs 0).result = .ok r ∧
    r.plan.classification.sources = ["/w/src/a.cpp", "/w/src/b.cpp"] ∧
    r.plan.classification.headers = ["/w/src/c;d.h"] ∧
    Descriptor.read (g.run (describedTree 0o644) declaredInputs 0).files r.descriptor =
      .ok decoded := by
  obtain ⟨g, hproject, hconfigs, ht, hproperties, p, hp, hachievable, hsources, hheaders⟩ :=
    exists_optionsProject
  have hloaded := loaded_of_mapping hproject
  have hkeys : ∀ config ∈ g.settings.configurations, Descriptor.IsKey config := by
    rw [hconfigs]
    decide
  have hchars := fun config hconfig => (hkeys config hconfig).2
  have hnames := fun config hconfig =>
    And.intro ((hkeys config hconfig).not_mem (.inl rfl))
      ((hkeys config hconfig).not_mem (.inr rfl))
  obtain ⟨r, hr, rfl⟩ := run_of_achievable hloaded.wellFormed hloaded.fresh
    (names_of_declared hchars)
    hloaded.delimiter hp hachievable
  cases readsBack_of_run hchars hr with
  | decoded values hread =>
    exact ⟨g, r, values, hproject, hnames, ht, hproperties, hr, hsources, hheaders, hread⟩
  | denied _ _ hbefore hunreadable =>
    rw [mode_describedTree hbefore] at hunreadable
    exact absurd hunreadable (by decide)

/-- The lists of the project without separators in their elements are found. -/
theorem flatLists_of_run_optionsProject : ∃ g r decoded, ofMapping optionsProject = .ok g ∧
    g.targets.get? "app" = some 0 ∧
    (∀ config ∈ g.settings.configurations, '\n' ∉ config.toList ∧ '\r' ∉ config.toList) ∧
    (g.run (describedTree 0o644) declaredInputs 0).result = .ok r ∧
    Descriptor.read (g.run (describedTree 0o644) declaredInputs 0).files r.descriptor =
      .ok decoded ∧
    flatList? decoded "AM_SOURCES" = some ["/w/src/a.cpp", "/w/src/b.cpp"] ∧
    flatList? decoded "AM_MOC_MACRO_NAMES" = some ["A_OBJECT", "B_OBJECT"] := by
  obtain ⟨g, r, decoded, hproject, hnames, ht, hproperties, hr, hsources, -, hread⟩ :=
    reads_optionsProject
  have hlists := (flatLists_of_run hproject ht hnames .refl hr).1 decoded hread
  rw [Target.forall_mem_flatLists (FindsList decoded), hproperties, hsources] at hlists
  obtain ⟨hfiles, -, hmoc, -⟩ := hlists
  obtain ⟨-, hmacros, -, -⟩ := hmoc rfl
  refine ⟨g, r, decoded, hproject, ht, hnames, hr, hread, hfiles.whole.mpr (by decide), ?_⟩
  exact hmacros.whole_of_text.mpr (by decide)

/-- The option and the header with separators in them are found as two each. -/
theorem pieces_optionsProject : ∃ g r decoded, ofMapping optionsProject = .ok g ∧
    (g.run (describedTree 0o644) declaredInputs 0).result = .ok r ∧
    Descriptor.read (g.run (describedTree 0o644) declaredInputs 0).files r.descriptor =
      .ok decoded ∧
    (g.target 0).properties.automocMocOptions = ["-DX=a;b"] ∧
    flatList? decoded "AM_MOC_OPTIONS" = some ["-DX=a", "b"] ∧
    r.plan.classification.headers = ["/w/src/c;d.h"] ∧
    flatList? decoded "AM_HEADERS" = some ["/w/src/c", "d.h"] := by
  obtain ⟨g, r, decoded, hproject, hnames, ht, hproperties, hr, -, hheaders, hread⟩ :=
    reads_optionsProject
  have hfound {key : String} {items : List String} (hmem : (key, joinList items) ∈ r.plan.entries)
      (hfilled : "" ∉ items) : flatList? decoded key = some (items.flatMap (Text.splitOn ";")) :=
    (FindsList.of_get? (get?_of_run hnames hr hread _ hmem) hfilled).pieces
  have hjoined := joined_of_plan (run_eq_ok hr).1
  rw [Target.forall_mem_flatLists fun key list => (key, joinList list) ∈ r.plan.entries,
    hproperties, hheaders] at hjoined
  obtain ⟨-, hheader, hmoc, -⟩ := hjoined
  refine ⟨g, r, decoded, hproject, hr, hread, by rw [hproperties], ?_, hheaders, ?_⟩
  · exact hfound (hmoc rfl).1 (by decide)
  · exact hfound hheader (by decide)

end Graph

end Autogen
