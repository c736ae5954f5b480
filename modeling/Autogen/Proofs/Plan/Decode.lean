import Autogen.Proofs.Descriptor.File
import Autogen.Proofs.Plan.Effects
import Autogen.Proofs.Plan.Entries

/-!
# Reading the descriptor of a run

What a run writes down says what it planned, in every configuration.

## Main statements

* `Graph.moc_of_examine`, `Graph.uic_of_examine` — the settings of moc and uic in a plan.
* `Graph.decoded_of_run` — the entries of a plan are read from its descriptor, and the values of the
  target in a configuration are found under their keys.
-/

namespace Autogen

open Plan (inConfiguration?)

namespace Graph

variable {g : Graph} {fs : FileSystem} {lister : ResourceLister} {t : TargetId} {x : Target}

/-! ## The records of a plan -/

/-- The settings of moc are those of the target; how the compiler's definitions are printed depends
on the version. -/
theorem mocSettings_eq_ok {binding : ToolBinding} {major minor : String} {moc : MocSettings}
    (h : g.mocSettings x binding major minor = .ok moc) : ∃ command, moc = {
      binding
      includes := x.includesDiff g.settings.buildType g.configurations
      definitions := x.definitionsDiff g.settings.buildType g.configurations
      options := x.properties.automocMocOptions
      relaxedMode := g.settings.automocRelaxedMode
      macroNames := x.properties.automocMacroNames
      dependFilters := x.properties.automocDependFilters
      predefsCommand := command } := by
  unfold mocSettings at h
  cases hversion : versionAtLeast major minor 5 8 with
  | error fault =>
    rw [hversion] at h
    cases h
  | ok hasPredefs =>
    rw [hversion] at h
    cases h
    exact ⟨_, rfl⟩

theorem moc_of_examine [Environment] {sources : List SourceFile} {ds : Diagnostics} {f : Findings}
    (h : (g.examine fs x sources ds).2 = .ok f) :
    (x.properties.automoc = true → f.moc.isSome) ∧ ∀ moc, f.moc = some moc →
      ∃ binding major minor, g.mocSettings x binding major minor = .ok moc := by
  obtain ⟨-, -, -, hmoc, -⟩ := findings_of_examine (Prod.ext rfl h)
  unfold bindEnabled at hmoc
  split at hmoc
  · rw [Option.mapM_some] at hmoc
    obtain ⟨settings, hsettings, heq⟩ := bind_eq_ok.mp hmoc
    rw [← Except.ok.inj heq]
    refine ⟨fun _ => rfl, fun moc heq => ?_⟩
    cases heq
    exact ⟨_, _, _, hsettings⟩
  · rename_i hdisabled
    rw [← Except.ok.inj hmoc]
    exact ⟨fun henabled => absurd henabled hdisabled, fun moc heq => by cases heq⟩

theorem uic_of_examine [Environment] {sources : List SourceFile} {ds : Diagnostics} {f : Findings}
    (h : (g.examine fs x sources ds).2 = .ok f) :
    (x.properties.autouic = true → f.uic.isSome) ∧ ∀ uic, f.uic = some uic →
      ∃ binding, uic = g.uicSettings x binding f.classification := by
  obtain ⟨-, -, -, -, huic, -⟩ := findings_of_examine (Prod.ext rfl h)
  rw [huic]
  unfold bindEnabled
  split
  · refine ⟨fun _ => rfl, fun uic heq => ?_⟩
    rw [← Option.some.inj heq]
    exact ⟨_, rfl⟩
  · rename_i hdisabled
    exact ⟨fun henabled => absurd henabled hdisabled, fun uic heq => by cases heq⟩

/-- The records by configuration of a plan are those of the target that it leaves behind. -/
structure Records (p : Plan) (x : Target) (settings : ProjectSettings) (configs : List String) :
    Prop where
  moc_isSome : x.properties.automoc = true → p.moc.isSome
  moc : ∀ moc, p.moc = some moc → moc.includes = x.includesDiff settings.buildType configs ∧
    moc.definitions = x.definitionsDiff settings.buildType configs
  uic_isSome : x.properties.autouic = true → p.uic.isSome
  uic : ∀ uic, p.uic = some uic → uic.targetOptions = x.uicOptionsDiff settings.buildType configs
  suffixes : p.configSuffixes.keys ⊆ configs

theorem keys_configSuffixes (g : Graph) : g.configSuffixes.keys ⊆ g.configurations := by
  unfold configSuffixes
  split
  · intro config hconfig
    obtain ⟨pair, hpair, rfl⟩ := List.mem_map.mp (OrderedMap.mem_keys_ofList.mp hconfig)
    obtain ⟨other, hother, rfl⟩ := List.mem_map.mp hpair
    exact List.mem_of_mem_filter hother
  · exact List.nil_subset _

theorem configSuffixes_of_plan [Environment] {p : Plan} (h : (g.plan fs lister t).result = .ok p) :
    p.configSuffixes = g.configSuffixes := by
  obtain ⟨-, findings, found, -, rfl⟩ := findings_of_plan h
  rfl

/-- The records of a plan are those of the target that knows its directory of generated headers. -/
theorem records_of_included [Environment] {p : Plan} (h : (g.plan fs lister t).result = .ok p) :
    Records p ((g.included t).target t) g.settings g.configurations := by
  have hsuffixes : p.configSuffixes.keys ⊆ g.configurations := by
    rw [configSuffixes_of_plan h]
    exact keys_configSuffixes g
  obtain ⟨-, findings, found, hexamine, rfl⟩ := findings_of_plan h
  refine ⟨(moc_of_examine hexamine).1, fun moc hmoc => ?_, (uic_of_examine hexamine).1,
    fun uic huic => ?_, hsuffixes⟩
  · obtain ⟨binding, major, minor, hsettings⟩ := (moc_of_examine hexamine).2 moc hmoc
    obtain ⟨command, rfl⟩ := mocSettings_eq_ok hsettings
    exact ⟨rfl, rfl⟩
  · obtain ⟨binding, rfl⟩ := (uic_of_examine hexamine).2 uic huic
    rfl

theorem records_of_plan [Environment] {p : Plan} (h : (g.plan fs lister t).result = .ok p) :
    Records p ((g.plan fs lister t).graph.target t) g.settings g.configurations := by
  have hrecords := records_of_included h
  rw [plan_eq] at h ⊢
  split at h
  · have hbare := bare_planRegistered (g.included t)
        fs lister t { target := some (g.target t).name }
    have hsame {α : Type} (part : Target → α) (hpart : ∀ x, part x.bare = part x) :
        part (((g.included t).planRegistered fs lister t
          { target := some (g.target t).name }).graph.target t) = part ((g.included t).target t) :=
      Store.part_eq_of_bare part hpart hbare t
    rw [if_pos ‹_›]
    refine ⟨?_, ?_, ?_, ?_, hrecords.suffixes⟩
    · rw [hsame (fun x => x.properties.automoc) fun _ => rfl]
      exact hrecords.moc_isSome
    · rw [hsame (fun x => x.includesDiff g.settings.buildType g.configurations) fun _ => rfl,
        hsame (fun x => x.definitionsDiff g.settings.buildType g.configurations) fun _ => rfl]
      exact hrecords.moc
    · rw [hsame (fun x => x.properties.autouic) fun _ => rfl]
      exact hrecords.uic_isSome
    · rw [hsame (fun x => x.uicOptionsDiff g.settings.buildType g.configurations) fun _ => rfl]
      exact hrecords.uic
  · cases h

/-! ## Reading -/

/-- What is recorded by configuration is recorded for the configurations of the project. -/
theorem Records.mem_configs {p : Plan} {settings : ProjectSettings} {configs : List String}
    (h : Records p x settings configs) :
    ∀ family ∈ p.families, ∀ config ∈ family.2.keys, config ∈ configs := by
  refine (p.forall_mem_families fun values => ∀ config ∈ values.keys, config ∈ configs).mpr
    ⟨fun config hconfig => h.suffixes hconfig, fun moc hmoc => ?_, fun uic huic => ?_⟩
  · rw [(h.moc moc hmoc).1, (h.moc moc hmoc).2]
    exact ⟨fun _ hconfig => (ConfigDiff.mem_keys_of.mp hconfig).1,
      fun _ hconfig => (ConfigDiff.mem_keys_of.mp hconfig).1⟩
  · rw [h.uic uic huic]
    exact fun _ hconfig => (ConfigDiff.mem_keys_of.mp hconfig).1

/-- A plan whose configurations have names of key characters can be written down. -/
theorem Records.writable {p : Plan} {settings : ProjectSettings} {configs : List String}
    (h : Records p x settings configs)
    (hconfigs : ∀ config ∈ configs, ∀ c ∈ config.toList, Descriptor.isKeyChar c) :
    ∀ s ∈ p.sections, s.Writable :=
  Plan.writable_sections fun family hfamily config hconfig =>
    hconfigs config (h.mem_configs family hfamily config hconfig)

/-- A plan whose texts are without the mark of halves has an encoding. -/
theorem isEncodable_render {p : Plan} (hwritable : ∀ s ∈ p.sections, s.Writable)
    (hvalues : ∀ entry ∈ p.entries, Text.halfMark ∉ entry.2.toList)
    (hfamilies : ∀ family ∈ p.families, ∀ pair ∈ family.2.toList, Text.halfMark ∉ pair.2.toList) :
    Text.isEncodable p.render = true := by
  refine Descriptor.isEncodable_format hwritable (fun s hs => ?_) fun s hs entry hentry => ?_
  · rcases List.mem_cons.mp hs with rfl | hs
    · have htitle : Text.halfMark ∉ "Meta".toList := by decide
      exact htitle
    · obtain rfl := List.mem_singleton.mp hs
      have htitle : Text.halfMark ∉ "Configuration specific options".toList := by decide
      exact htitle
  · rcases List.mem_cons.mp hs with rfl | hs
    · exact hvalues entry hentry
    · obtain rfl := List.mem_singleton.mp hs
      obtain ⟨family, hfamily, config, value, hget, rfl⟩ := Plan.mem_configurationEntries.mp hentry
      exact hfamilies family hfamily (config, value) (OrderedMap.get?_eq_some.mp hget)

/-- A plan that nothing keeps from being carried out: the name of its step is free, the file of its
descriptor can be written, and its texts are without the mark of halves. -/
structure Achievable [Environment] (g : Graph) (fs : FileSystem) (p : Plan) : Prop where
  free : g.isTaken p.autogenTargetName = false
  write : (fs.write (Path.ofString p.infoFile) .empty).2 = .ok ()
  values : ∀ entry ∈ p.entries, Text.halfMark ∉ entry.2.toList
  families : ∀ family ∈ p.families, ∀ pair ∈ family.2.toList, Text.halfMark ∉ pair.2.toList

instance  [Environment](g : Graph) (fs : FileSystem) (p : Plan) : Decidable (g.Achievable fs p) :=
  decidable_of_iff (g.isTaken p.autogenTargetName = false ∧
      (fs.write (Path.ofString p.infoFile) .empty).2 = .ok () ∧
      (∀ entry ∈ p.entries, Text.halfMark ∉ entry.2.toList) ∧
      ∀ family ∈ p.families, ∀ pair ∈ family.2.toList, Text.halfMark ∉ pair.2.toList)
    ⟨fun ⟨hfree, hwrite, hvalues, hfamilies⟩ => ⟨hfree, hwrite, hvalues, hfamilies⟩,
      fun h => ⟨h.free, h.write, h.values, h.families⟩⟩

/-- A run returns when it makes a plan that nothing keeps from being carried out. -/
theorem run_of_achievable [Environment] {p : Plan} (hg : g.WellFormed) (hfresh : g.Fresh)
    (hconfigs : ∀ config ∈ g.configurations, ∀ c ∈ config.toList, Descriptor.isKeyChar c)
    (hdelimiter : g.settings.sourceGroupDelimiter ≠ "")
    (hplan : (g.plan fs lister t).result = .ok p) (h : g.Achievable fs p) :
    ∃ r, (g.run fs lister t).result = .ok r ∧ r.plan = p := by
  have hencodable : Text.isEncodable p.render = true :=
    isEncodable_render ((records_of_plan hplan).writable hconfigs) h.values h.families
  obtain ⟨r, hr⟩ := run_returns hg hfresh hplan (.inl hdelimiter) h.free
    (Descriptor.write_returns hencodable h.write)
  exact ⟨r, hr, Except.ok.inj ((run_eq_ok hr).1.symm.trans hplan)⟩

/-- The values of a target in a configuration are found under their keys. -/
structure Decodes (decoded : OrderedMap String String) (x : Target) (config : String) : Prop where
  definitions : x.properties.automoc = true → inConfiguration? decoded "AM_MOC_DEFINITIONS" config =
    some (joinList (x.compileDefinitionsFor config))
  includes : x.properties.automoc = true → inConfiguration? decoded "AM_MOC_INCLUDES" config =
    some (joinList (x.includeDirectoriesFor config))
  uicOptions : x.properties.autouic = true →
    inConfiguration? decoded "AM_UIC_TARGET_OPTIONS" config =
    some (joinList (x.autouicOptionsFor config))

/-- A value that was recorded by configuration is found under its key. -/
theorem found_of_recorded {p : Plan} {configs : List String} {decoded : OrderedMap String String}
    (hdecoded : decoded.toList = p.entries ++ p.configurationEntries) {start baseline : String}
    {diff : ConfigDiff} {compute : String → String} (hdiff : diff = .of baseline configs compute)
    (hfamily : (start, diff.overrides) ∈ p.families) (hentry : (start, diff.baseline) ∈ p.entries)
    {config : String} (hconfig : config ∈ configs) :
    inConfiguration? decoded start config = some (compute config) := by
  have hvalue : diff.valueFor config = compute config := by
    rw [hdiff]
    exact ConfigDiff.valueFor_of hconfig
  rw [← hvalue]
  exact Plan.inConfiguration?_decoded hdecoded hfamily hentry config

theorem Records.decodes {p : Plan} {settings : ProjectSettings} {configs : List String}
    (h : Records p x settings configs) {decoded : OrderedMap String String}
    (hdecoded : decoded.toList = p.entries ++ p.configurationEntries) {config : String}
    (hconfig : config ∈ configs) : Decodes decoded x config := by
  refine ⟨fun henabled => ?_, fun henabled => ?_, fun henabled => ?_⟩
  · obtain ⟨moc, hmoc⟩ := Option.isSome_iff_exists.mp (h.moc_isSome henabled)
    refine found_of_recorded hdecoded (h.moc moc hmoc).2 ?_ ?_ hconfig
    · simp [Plan.families, hmoc]
    · simp [Plan.entries, Plan.mocEntries, Plan.ofEnabled, hmoc]
  · obtain ⟨moc, hmoc⟩ := Option.isSome_iff_exists.mp (h.moc_isSome henabled)
    refine found_of_recorded hdecoded (h.moc moc hmoc).1 ?_ ?_ hconfig
    · simp [Plan.families, hmoc]
    · simp [Plan.entries, Plan.mocEntries, Plan.ofEnabled, hmoc]
  · obtain ⟨uic, huic⟩ := Option.isSome_iff_exists.mp (h.uic_isSome henabled)
    refine found_of_recorded hdecoded (h.uic uic huic) ?_ ?_ hconfig
    · simp [Plan.families, huic]
    · simp [Plan.entries, Plan.uicEntries, Plan.ofEnabled, huic]

/-- The nameless configuration of a project that declares none has no characters. -/
theorem names_of_declared {P : Char → Prop}
    (h : ∀ config ∈ g.settings.configurations, ∀ c ∈ config.toList, P c) :
    ∀ config ∈ g.configurations, ∀ c ∈ config.toList, P c := by
  unfold configurations
  split
  · simp
  · exact h

/-- When the declared configurations have names of key characters, reading the descriptor of a run
gives the entries of its plan, no key lost and none given twice, and under them the values of the
target in every configuration. Only a descriptor that was there before, and that its owner could not
read then, cannot be read. -/
theorem decoded_of_run [Environment] {r : RunResult}
    (hconfigs : ∀ config ∈ g.settings.configurations, ∀ c ∈ config.toList, Descriptor.isKeyChar c)
    (hrun : (g.run fs lister t).result = .ok r) :
    ∃ loc file decoded,
      (g.run fs lister t).files.lookup .target r.descriptor.text = .ok ⟨loc, some (.file file)⟩ ∧
      Descriptor.read (g.run fs lister t).files r.descriptor =
        (if FileSystem.hasBit file.mode FileSystem.ownerRead then .ok decoded
          else .error (.file .permissionDenied)) ∧
      (FileSystem.hasBit file.mode FileSystem.ownerRead = false ↔ ∃ old,
        fs.find? loc = some (.file old) ∧ FileSystem.hasBit old.mode FileSystem.ownerRead = false) ∧
      decoded.toList = r.plan.entries ++ r.plan.configurationEntries ∧
      ∀ config ∈ g.configurations,
        Decodes decoded ((g.plan fs lister t).graph.target t) config := by
  obtain ⟨hplan, -, hwrite⟩ := run_eq_ok hrun
  have hrecords := records_of_plan hplan
  obtain ⟨loc, file, hwritten, hread⟩ :=
    Descriptor.read_write (hrecords.writable (names_of_declared hconfigs)) hwrite
  have hentries : r.plan.sections.flatMap (·.entries) = r.plan.entries ++
      r.plan.configurationEntries := by
    simp [Plan.sections]
  have hdecoded := OrderedMap.toList_ofList (Plan.nodup_keys r.plan)
  rw [hentries] at hread
  exact ⟨loc, file, _, hwritten.found, hread, hwritten.unreadable_iff, hdecoded,
    fun config hconfig => hrecords.decodes hdecoded hconfig⟩

/-- A descriptor that could not be read before a run stays that way. -/
theorem unreadable_of_run [Environment] {r : RunResult}
    (hconfigs : ∀ config ∈ g.settings.configurations, ∀ c ∈ config.toList, Descriptor.isKeyChar c)
    (htree : fs.IsTree) (hrun : (g.run fs lister t).result = .ok r) {loc : Location}
    {old : FileSystem.File}
    (hold : fs.lookup .target r.descriptor.text = .ok ⟨loc, some (.file old)⟩)
    (hmode : FileSystem.hasBit old.mode FileSystem.ownerRead = false) :
    Descriptor.read (g.run fs lister t).files r.descriptor = .error (.file .permissionDenied) := by
  obtain ⟨hplan, -, hwrite⟩ := run_eq_ok hrun
  obtain ⟨there, file, hwritten, hread⟩ :=
    Descriptor.read_write ((records_of_plan hplan).writable (names_of_declared hconfigs)) hwrite
  have hgrows : fs.Grows (g.run fs lister t).files := by
    have hfiles := Descriptor.write_grows htree r.descriptor r.plan.render
    rwa [hwrite] at hfiles
  have hcarries : FileSystem.Carries (fs.lookup .target r.descriptor.text)
      ((g.run fs lister t).files.lookup .target r.descriptor.text) :=
    FileSystem.lookup_grows hgrows r.descriptor.text
  rw [hold] at hcarries
  obtain ⟨file', hfile'⟩ := hcarries
  cases hwritten.found.symm.trans hfile'
  have hunreadable : FileSystem.hasBit file.mode FileSystem.ownerRead = false :=
    hwritten.unreadable_iff.mpr ⟨old, (FileSystem.lookup_arrives hold).node.symm, hmode⟩
  rw [hread, hunreadable]
  rfl

attribute [local instance] Environment.plain

/-- A project with an application for which moc is enabled and whose definitions depend on the
configuration. -/
def appProject : Graph where
  settings := {
    sourceDir := "/w/src"
    binaryDir := "/w/build"
    buildType := "Debug"
    configurations := ["Debug", "Release"]
    multiConfig := true
    qtVersionMajor := some "5" }
  store := {
    sources := [{ path := "/w/src/a.h" }]
    targets := [{
      name := "app"
      sourceDir := "/w/src"
      binaryDir := "/w/build"
      properties := { automoc := true }
      sources := [0]
      configCompileDefinitions := OrderedMap.ofList [("Release", ["NDEBUG"])] }] }
  targets := OrderedMap.ofList [("app", 0)]
  importedTargets := OrderedMap.ofList [("Qt5::moc", ⟨"Qt5::moc", "/opt/moc"⟩)]

theorem wellFormed_appProject : appProject.WellFormed :=
  wellFormed_of_unlinked (by decide) (by decide) rfl

theorem fresh_appProject : appProject.Fresh :=
  fresh_of_unremembered (by decide)

/-- A tree in which the descriptor of the application is there already, with the given mode. -/
def describedTree (mode : Nat) : FileSystem :=
  ⟨OrderedMap.ofList [(["w"], .directory), (["w", "build"], .directory),
    (["w", "build", "CMakeFiles"], .directory),
    (["w", "build", "CMakeFiles", "app_autogen.dir"], .directory),
    (["w", "build", "CMakeFiles", "app_autogen.dir", "AutogenInfo.cmake"], .file ⟨.empty, mode⟩)]⟩

theorem names_appProject : ∀ config ∈ appProject.settings.configurations,
    ∀ c ∈ config.toList, Descriptor.isKeyChar c := by
  have hkeys : ∀ config ∈ appProject.settings.configurations, Descriptor.IsKey config := by decide
  exact fun config hconfig => (hkeys config hconfig).2

/-- The application is planned whether its descriptor can be read or not. -/
theorem run_appProject {mode : Nat} (hmode : mode ∈ [0o200, 0o644]) :
    ∃ r, (appProject.run (describedTree mode) declaredInputs 0).result = .ok r ∧
      r.descriptor.text = "/w/build/CMakeFiles/app_autogen.dir/AutogenInfo.cmake" ∧
      r.plan.generatedFiles.map (·.path) = ["/w/build/app_autogen/mocs_compilation.cpp"] := by
  have hplans : ∀ mode ∈ [0o200, 0o644],
      (appProject.plan (describedTree mode) declaredInputs 0).result.toOption.isSome ∧
      ∀ p ∈ (appProject.plan (describedTree mode) declaredInputs 0).result.toOption,
        appProject.Achievable (describedTree mode) p ∧
        (Path.ofString p.infoFile).text = "/w/build/CMakeFiles/app_autogen.dir/AutogenInfo.cmake" ∧
        p.generatedFiles.map (·.path) = ["/w/build/app_autogen/mocs_compilation.cpp"] := by
    decide +kernel
  obtain ⟨hplanned, hp⟩ := hplans mode hmode
  cases hplan : (appProject.plan (describedTree mode) declaredInputs 0).result with
  | error fault =>
    rw [hplan] at hplanned
    cases hplanned
  | ok p =>
    rw [hplan] at hp
    obtain ⟨hachievable, hpath, houtputs⟩ := hp p rfl
    obtain ⟨r, hr, rfl⟩ := run_of_achievable wellFormed_appProject fresh_appProject names_appProject
      (by decide) hplan hachievable
    exact ⟨r, hr, (run_eq_ok hr).2.1 ▸ hpath, houtputs⟩

theorem mode_describedTree {mode : Nat} {loc : Location} {file : FileSystem.File}
    (h : (describedTree mode).find? loc = some (.file file)) : file.mode = mode := by
  unfold FileSystem.find? at h
  split at h
  · cases h
  · have hmem := OrderedMap.mem_of_get?_ofList h
    simp only [List.mem_cons, Prod.mk.injEq, reduceCtorEq, and_false, false_or,
      FileSystem.Node.file.injEq, List.not_mem_nil, or_false] at hmem
    rw [hmem.2]

/-- A descriptor that can be read is read back. -/
theorem decoded_of_run_appProject :
    ∃ r decoded, (appProject.run (describedTree 0o644) declaredInputs 0).result = .ok r ∧
      Descriptor.read (appProject.run (describedTree 0o644) declaredInputs 0).files r.descriptor =
        .ok decoded ∧
      decoded.toList = r.plan.entries ++ r.plan.configurationEntries ∧
      Decodes decoded ((appProject.plan (describedTree 0o644) declaredInputs 0).graph.target 0)
        "Release" := by
  obtain ⟨r, hr, -, -⟩ := run_appProject (show 0o644 ∈ [0o200, 0o644] by decide)
  obtain ⟨loc, file, decoded, -, hread, hmode, hentries, hdecodes⟩ :=
    decoded_of_run names_appProject hr
  have hreadable : FileSystem.hasBit file.mode FileSystem.ownerRead = true := by
    by_contra hnot
    obtain ⟨old, hold, hbit⟩ := hmode.mp (Bool.eq_false_iff.mpr hnot)
    rw [mode_describedTree hold] at hbit
    exact absurd hbit (by decide)
  rw [if_pos hreadable] at hread
  exact ⟨r, decoded, hr, hread, hentries, hdecodes "Release" (by decide)⟩

/-- The descriptor of the application cannot be read after a run if it could not be read before. -/
theorem unreadable_descriptor_appProject :
    (∀ config ∈ appProject.settings.configurations, ∀ c ∈ config.toList, Descriptor.isKeyChar c) ∧
    ∃ r, (appProject.run (describedTree 0o200) declaredInputs 0).result = .ok r ∧
      Descriptor.read (appProject.run (describedTree 0o200) declaredInputs 0).files r.descriptor =
        .error (.file .permissionDenied) := by
  obtain ⟨r, hr, htext, -⟩ := run_appProject (show 0o200 ∈ [0o200, 0o644] by decide)
  have hlookup : (describedTree 0o200).lookup .target
      "/w/build/CMakeFiles/app_autogen.dir/AutogenInfo.cmake" =
      .ok ⟨["w", "build", "CMakeFiles", "app_autogen.dir", "AutogenInfo.cmake"],
        some (.file ⟨.empty, 0o200⟩)⟩ := by
    decide +kernel
  rw [← htext] at hlookup
  exact ⟨names_appProject, r, hr, unreadable_of_run names_appProject
    (FileSystem.isTree_of_entries (by decide)) hr hlookup (by decide)⟩

end Graph

end Autogen
