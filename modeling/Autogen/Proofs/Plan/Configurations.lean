import Autogen.Proofs.Plan.Decode

/-!
# The section for configurations

Which keys stand in the part of a descriptor that is particular to configurations. A project that
declares none has a nameless one in their place, whose values are compared with those of the default
build type. Where they differ, the section has keys that end where the name of a configuration
should follow.

## Main definitions

* `Plan.Agrees` — two configurations for which everything that is recorded by configuration is the
  same.

## Main statements

* `Plan.configurationEntries_eq_nil` — when there is nothing to say about configurations.
* `Graph.configurations_of_run` — whose keys the section of a run has, and when a project without
  configurations has none.
-/

namespace Autogen

/-- A record has no value of its own if all configurations agree with the baseline. -/
theorem ConfigDiff.keys_of_eq_nil {baseline : String} {configs : List String}
    {compute : String → String} :
    (ConfigDiff.of baseline configs compute).overrides.keys = [] ↔
      ∀ config ∈ configs, compute config = compute baseline := by
  rw [List.eq_nil_iff_forall_not_mem]
  simp only [mem_keys_of, not_and, ne_eq, not_not]

namespace Plan

variable {p : Plan}

theorem overrideEntries_eq_nil {start : String} {values : OrderedMap String String} :
    overrideEntries start values = [] ↔ values.keys = [] := by
  rw [overrideEntries, List.map_eq_nil_iff, Text.sorted]
  constructor
  · intro hnil
    have hperm := List.mergeSort_perm values.keys Text.precedes
    rw [hnil] at hperm
    exact List.nil_perm.mp hperm
  · intro hnil
    rw [hnil, List.mergeSort_nil]

/-- Nothing is said about configurations if no family has a value for one. -/
theorem configurationEntries_eq_nil :
    p.configurationEntries = [] ↔ ∀ family ∈ p.families, family.2.keys = [] := by
  rw [configurationEntries_eq, List.flatMap_eq_nil_iff]
  exact forall₂_congr fun family _ => overrideEntries_eq_nil

/-- The sections without entries are left out of a descriptor. -/
theorem render_of_configurationEntries_eq_nil (h : p.configurationEntries = []) :
    p.render = Descriptor.format [⟨"Meta", p.entries⟩] := by
  rw [render, sections, h, Descriptor.format, Descriptor.lines]
  rfl

/-- Two configurations for which everything that a plan records by configuration is the same in a
target. -/
structure Agrees (p : Plan) (x : Target) (config config' : String) : Prop where
  definitions : p.moc.isSome →
    joinList (x.compileDefinitionsFor config) = joinList (x.compileDefinitionsFor config')
  includes : p.moc.isSome →
    joinList (x.includeDirectoriesFor config) = joinList (x.includeDirectoriesFor config')
  uicOptions : p.uic.isSome → joinList (x.autouicOptionsFor config) =
    joinList (x.autouicOptionsFor config')

instance (p : Plan) (x : Target) (config config' : String) :
    Decidable (p.Agrees x config config') :=
  decidable_of_iff (
      (p.moc.isSome →
        joinList (x.compileDefinitionsFor config) = joinList (x.compileDefinitionsFor config')) ∧
      (p.moc.isSome →
        joinList (x.includeDirectoriesFor config) = joinList (x.includeDirectoriesFor config')) ∧
      (p.uic.isSome → joinList (x.autouicOptionsFor config) =
        joinList (x.autouicOptionsFor config')))
    ⟨fun ⟨hdefinitions, hincludes, hoptions⟩ => ⟨hdefinitions, hincludes, hoptions⟩,
      fun h => ⟨h.definitions, h.includes, h.uicOptions⟩⟩

end Plan

namespace Graph

variable {g : Graph} {fs : FileSystem} {lister : ResourceLister} {t : TargetId}
  {x : Target} {p : Plan}

theorem nameless_not_mem_configSuffixes (g : Graph) : "" ∉ g.configSuffixes.keys := by
  unfold configSuffixes
  split
  · rw [OrderedMap.mem_keys_ofList]
    simp
  · exact List.not_mem_nil

/-- No value of a target is recorded for a configuration exactly if all configurations agree with
the default build type. -/
theorem Records.keys_families_eq_nil {settings : ProjectSettings} {configs : List String}
    (h : Records p x settings configs) :
    (∀ family ∈ p.families, family.2.keys = []) ↔
      p.configSuffixes.keys = [] ∧ ∀ config ∈ configs, p.Agrees x config settings.buildType := by
  have hmoc (moc : MocSettings) (hmoc : p.moc = some moc) :
      (moc.definitions.overrides.keys = [] ↔ ∀ config ∈ configs,
        joinList (x.compileDefinitionsFor config) =
          joinList (x.compileDefinitionsFor settings.buildType)) ∧
      (moc.includes.overrides.keys = [] ↔ ∀ config ∈ configs,
        joinList (x.includeDirectoriesFor config) =
          joinList (x.includeDirectoriesFor settings.buildType)) := by
    obtain ⟨hincludes, hdefinitions⟩ := h.moc moc hmoc
    rw [hincludes, hdefinitions]
    exact ⟨ConfigDiff.keys_of_eq_nil, ConfigDiff.keys_of_eq_nil⟩
  have huic (uic : UicSettings) (huic : p.uic = some uic) :
      uic.targetOptions.overrides.keys = [] ↔ ∀ config ∈ configs,
        joinList (x.autouicOptionsFor config) =
          joinList (x.autouicOptionsFor settings.buildType) := by
    rw [h.uic uic huic]
    exact ConfigDiff.keys_of_eq_nil
  -- The families of a plan are the suffixes and what the tools that are in use are given.
  rw [p.forall_mem_families fun values => values.keys = []]
  refine and_congr_right fun _ =>
    ⟨fun ⟨hmocs, huics⟩ config hconfig => ⟨?_, ?_, ?_⟩, fun hagrees => ⟨?_, ?_⟩⟩
  · intro hsome
    obtain ⟨moc, heq⟩ := Option.isSome_iff_exists.mp hsome
    exact (hmoc moc heq).1.mp (hmocs moc heq).1 config hconfig
  · intro hsome
    obtain ⟨moc, heq⟩ := Option.isSome_iff_exists.mp hsome
    exact (hmoc moc heq).2.mp (hmocs moc heq).2 config hconfig
  · intro hsome
    obtain ⟨uic, heq⟩ := Option.isSome_iff_exists.mp hsome
    exact (huic uic heq).mp (huics uic heq) config hconfig
  · intro moc heq
    have hsome : p.moc.isSome := by rw [heq]; rfl
    exact ⟨(hmoc moc heq).1.mpr fun config hconfig => (hagrees config hconfig).definitions hsome,
      (hmoc moc heq).2.mpr fun config hconfig => (hagrees config hconfig).includes hsome⟩
  · intro uic heq
    have hsome : p.uic.isSome := by rw [heq]; rfl
    exact (huic uic heq).mpr fun config hconfig => (hagrees config hconfig).uicOptions hsome

theorem configurations_of_undeclared (h : g.settings.configurations = []) :
    g.configurations = [""] := by
  rw [configurations, h]
  rfl

/-- A plan for a project without configurations says something about one exactly if the nameless one
and the default build type do not agree. -/
theorem configurationEntries_of_undeclared [Environment]
    (hplan : (g.plan fs lister t).result = .ok p) (hundeclared : g.settings.configurations = []) :
    p.configurationEntries = [] ↔ p.Agrees ((g.plan fs lister t).graph.target t)
      "" g.settings.buildType := by
  have hrecords := records_of_plan hplan
  have hnosuffix : p.configSuffixes.keys = [] := by
    refine List.eq_nil_iff_forall_not_mem.mpr fun config hconfig => ?_
    have hmem := hrecords.suffixes hconfig
    rw [configurations_of_undeclared hundeclared, List.mem_singleton] at hmem
    rw [configSuffixes_of_plan hplan, hmem] at hconfig
    exact nameless_not_mem_configSuffixes g hconfig
  rw [Plan.configurationEntries_eq_nil, hrecords.keys_families_eq_nil,
    configurations_of_undeclared hundeclared, List.forall_mem_singleton]
  exact and_iff_right hnosuffix

/-- Every key in the section for configurations is one of the project's configurations, except that
a project without any has keys of a nameless one if this one and the default build type do not
agree. If they agree, such a project has no section for configurations. -/
theorem configurations_of_run [Environment] {r : RunResult}
    (hrun : (g.run fs lister t).result = .ok r) :
    let agrees := r.plan.Agrees ((g.plan fs lister t).graph.target t) "" g.settings.buildType
    Descriptor.write fs r.descriptor (Descriptor.format
      [⟨"Meta", r.plan.entries⟩, ⟨"Configuration specific options", r.plan.configurationEntries⟩]) =
        ((g.run fs lister t).files, .ok ()) ∧
    (∀ entry ∈ r.plan.configurationEntries, ∃ start ∈ Plan.starts, ∃ config,
      entry.1 = start ++ "_" ++ config ∧
        (config ∈ g.settings.configurations ∨
          g.settings.configurations = [] ∧ config = "" ∧ start ≠ "AM_CONFIG_SUFFIX" ∧ ¬ agrees)) ∧
    (g.settings.configurations = [] →
      (r.plan.configurationEntries = [] ↔ agrees) ∧
        (agrees → r.plan.render = Descriptor.format [⟨"Meta", r.plan.entries⟩])) := by
  intro agrees
  obtain ⟨hplan, -, hwrite⟩ := run_eq_ok hrun
  have hrecords := records_of_plan hplan
  have hnone := configurationEntries_of_undeclared hplan
  refine ⟨hwrite, fun entry hentry => ?_, fun hundeclared => ⟨hnone hundeclared, fun hagrees => ?_⟩⟩
  · obtain ⟨family, hfamily, config, value, hget, rfl⟩ := Plan.mem_configurationEntries.mp hentry
    have hkey : config ∈ family.2.keys := List.mem_map_of_mem (OrderedMap.get?_eq_some.mp hget)
    have hconfig := hrecords.mem_configs family hfamily config hkey
    refine ⟨family.1, Plan.mem_starts hfamily, config, rfl, ?_⟩
    by_cases hundeclared : g.settings.configurations = []
    · rw [configurations_of_undeclared hundeclared, List.mem_singleton] at hconfig
      subst hconfig
      refine .inr ⟨hundeclared, rfl, fun hstart => ?_, fun hagrees => ?_⟩
      · have hfirst : ("AM_CONFIG_SUFFIX", r.plan.configSuffixes) ∈ r.plan.families := by
          simp [Plan.families]
        have hstarts : (r.plan.families.map Prod.fst).Nodup :=
          (Plan.starts_families r.plan).nodup (by decide)
        obtain rfl := List.inj_on_of_nodup_map hstarts hfamily hfirst hstart
        exact nameless_not_mem_configSuffixes g (configSuffixes_of_plan hplan ▸ hkey)
      · rw [(hnone hundeclared).mpr hagrees] at hentry
        cases hentry
    · rw [configurations, if_neg (by simpa using hundeclared)] at hconfig
      exact .inl hconfig
  · exact Plan.render_of_configurationEntries_eq_nil ((hnone hundeclared).mpr hagrees)

attribute [local instance] Environment.plain

/-- The application in a project that declares no configurations. -/
def namelessProject (buildType : String) : Graph :=
  { appProject with settings := {
      appProject.settings with configurations := [], multiConfig := false, buildType } }

/-- The application is planned whatever the default build type is. -/
theorem run_namelessProject {buildType : String} (h : buildType ∈ ["Debug", "Release"]) :
    ∃ r, ((namelessProject buildType).run (describedTree 0o644) declaredInputs 0).result = .ok r ∧
      ((namelessProject buildType).plan (describedTree 0o644) declaredInputs 0).result =
        .ok r.plan := by
  have hplans : ∀ buildType ∈ ["Debug", "Release"],
      ∃ p,
        ((namelessProject buildType).plan (describedTree 0o644) declaredInputs 0).result = .ok p ∧
        (namelessProject buildType).Achievable (describedTree 0o644) p := by
    decide +kernel
  obtain ⟨p, hplan, hachievable⟩ := hplans buildType h
  have hwell : (namelessProject buildType).WellFormed :=
    ⟨wellFormed_appProject.linked, wellFormed_appProject.index⟩
  have hfresh : (namelessProject buildType).Fresh := fresh_appProject
  have hnames : ∀ config ∈ (namelessProject buildType).configurations, ∀ c ∈ config.toList,
      Descriptor.isKeyChar c := names_of_declared (g := namelessProject buildType) nofun
  obtain ⟨r, hr, rfl⟩ := run_of_achievable hwell hfresh hnames
    (show appProject.settings.sourceGroupDelimiter ≠ "" by decide) hplan hachievable
  exact ⟨r, hr, hplan⟩

/-- In the build type "Debug" the application has no settings of its own, so nothing is said about
configurations. -/
theorem configurations_of_run_namelessProject :
    ∃ r, ((namelessProject "Debug").run (describedTree 0o644) declaredInputs 0).result = .ok r ∧
      r.plan.configurationEntries = [] ∧
      r.plan.render = Descriptor.format [⟨"Meta", r.plan.entries⟩] := by
  obtain ⟨r, hr, hplan⟩ := run_namelessProject (show "Debug" ∈ ["Debug", "Release"] by decide)
  obtain ⟨p, hmade, hagrees⟩ : ∃ p,
      ((namelessProject "Debug").plan (describedTree 0o644) declaredInputs 0).result = .ok p ∧
        p.Agrees (((namelessProject "Debug").plan (describedTree 0o644)
          declaredInputs 0).graph.target 0)
          "" "Debug" := by
    decide +kernel
  obtain rfl : p = r.plan := Except.ok.inj (hmade.symm.trans hplan)
  obtain ⟨hnone, hrender⟩ := (configurations_of_run hr).2.2 rfl
  exact ⟨r, hr, hnone.mpr hagrees, hrender hagrees⟩

/-- In the build type "Release" it has some, and the section gives a key that ends in no
configuration. -/
theorem configurations_namelessProject :
    (namelessProject "Release").settings.configurations = [] ∧
    ∃ r, ((namelessProject "Release").run (describedTree 0o644) declaredInputs 0).result = .ok r ∧
      r.plan.configurationEntries = [("AM_MOC_DEFINITIONS_", "")] := by
  obtain ⟨r, hr, hplan⟩ := run_namelessProject (show "Release" ∈ ["Debug", "Release"] by decide)
  obtain ⟨p, hmade, hentries⟩ : ∃ p,
      ((namelessProject "Release").plan (describedTree 0o644) declaredInputs 0).result = .ok p ∧
        p.configurationEntries = [("AM_MOC_DEFINITIONS_", "")] := by
    decide +kernel
  obtain rfl : p = r.plan := Except.ok.inj (hmade.symm.trans hplan)
  exact ⟨rfl, r, hr, hentries⟩

end Graph

end Autogen
