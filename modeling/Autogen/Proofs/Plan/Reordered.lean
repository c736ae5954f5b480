import Autogen.Proofs.Graph.Reordered
import Autogen.Proofs.Plan.Comparison
import Autogen.Proofs.Plan.Decode

/-!
# Runs whose declarations are reordered

What a run writes down does not depend on the order of declarations that have none. Such a
declaration is read in two ways only: as the settings of the target in a configuration, which are
the same, and as a list of configurations, which the descriptor sorts. Everything else is planned
without looking at it.

## Main definitions

* `Plan.plain`, `Graph.Findings.plain` — what is planned without looking at declarations that have
  no order.
* `ConfigDiff.Same`, `Plan.Reorders` — plans that say the same about every configuration.

## Main statements

* `Graph.plan_plain` — planning looks at these declarations for the records by configuration alone.
* `Plan.Reorders.render` — plans that say the same are written down in the same way.
* `Graph.run_of_reorders` — a run leaves the same files.
-/

namespace Autogen

/-! ## Plans without records by configuration -/

/-- The settings of moc without the records by configuration. -/
def MocSettings.plain (m : MocSettings) : MocSettings :=
  { m with includes := ⟨"", .empty⟩, definitions := ⟨"", .empty⟩ }

/-- The settings of uic without the record by configuration. -/
def UicSettings.plain (u : UicSettings) : UicSettings :=
  { u with targetOptions := ⟨"", .empty⟩ }

/-- Settings of moc that differ in the records alone. -/
theorem MocSettings.eq_of_plain {m m' : MocSettings} (h : m'.plain = m.plain) :
    m' = { m with includes := m'.includes, definitions := m'.definitions } := by
  cases m
  cases m'
  simp only [plain, mk.injEq, true_and] at h ⊢
  exact h

theorem UicSettings.eq_of_plain {u u' : UicSettings} (h : u'.plain = u.plain) :
    u' = { u with targetOptions := u'.targetOptions } := by
  cases u
  cases u'
  simp only [plain, mk.injEq, true_and] at h ⊢
  exact h

/-- A plan without what it says about configurations. -/
def Plan.plain (p : Plan) : Plan :=
  { p with
    configurations := []
    configSuffixes := .empty
    moc := p.moc.map MocSettings.plain
    uic := p.uic.map UicSettings.plain }

namespace Graph

variable {g g' : Graph} {fs : FileSystem} {lister : ResourceLister} {t : TargetId} {x : Target}
  {ds : Diagnostics}

/-- What is found out about a target, without the records by configuration. -/
def Findings.plain (f : Findings) : Findings :=
  { f with moc := f.moc.map MocSettings.plain, uic := f.uic.map UicSettings.plain }

theorem plannedSources_plain (g : Graph) (t : TargetId) :
    g.plain.plannedSources t = ((g.plannedSources t).1, (g.plannedSources t).2.plain) := by
  have hcommon :
      g.plain.commonSources t = ((g.commonSources t).1, (g.commonSources t).2.plain) := by
    have hstore := Store.commonSources_plain g.store t
    unfold commonSources
    rw [show g.plain.store.commonSources t = _ from hstore]
    rfl
  unfold plannedSources
  rw [hcommon, target_plain]
  rfl

/-! ### Finding out -/

theorem interfaceValues_plain {read : TargetProperties → Option String}
    (hread : ∀ y : Target, read y.plain.properties = read y.properties) (g : Graph) (x : Target) :
    g.plain.interfaceValues x.plain read = g.interfaceValues x read := by
  unfold interfaceValues
  simp only [target_plain, hread]
  rfl

theorem versionOf_plain {read : TargetProperties → Option String}
    (hread : ∀ y : Target, read y.plain.properties = read y.properties) (g : Graph) (x : Target)
    (explicit : Option String) (property : String) (ofProject : Option String) (ds : Diagnostics) :
    g.plain.versionOf x.plain explicit read property ofProject ds =
      g.versionOf x explicit read property ofProject ds := by
  unfold versionOf propagated
  rw [interfaceValues_plain hread]
  rfl

theorem majorVersion_plain (g : Graph) (x : Target) (ds : Diagnostics) :
    g.plain.majorVersion x.plain ds = g.majorVersion x ds :=
  versionOf_plain (fun _ => rfl) g x _ _ _ ds

theorem minorVersion_plain (g : Graph) (x : Target) (major : String) (ds : Diagnostics) :
    g.plain.minorVersion x.plain major ds = g.minorVersion x major ds :=
  versionOf_plain (fun _ => rfl) g x _ _ _ ds

theorem mocSettings_plain (g : Graph) (x : Target) (binding : ToolBinding) (major minor : String) :
    (g.plain.mocSettings x.plain binding major minor).map MocSettings.plain =
      (g.mocSettings x binding major minor).map MocSettings.plain := by
  unfold mocSettings
  cases versionAtLeast major minor 5 8 <;> rfl

theorem mapM_mocSettings_plain (g : Graph) (x : Target) (binding : Option ToolBinding)
    (major minor : String) :
    (binding.mapM fun b => g.plain.mocSettings x.plain b major minor).map
    (Option.map MocSettings.plain) =
      (binding.mapM fun b => g.mocSettings x b major minor).map (Option.map MocSettings.plain) := by
  cases binding with
  | none => rfl
  | some b =>
    rw [Option.mapM_some, Option.mapM_some]
    rcases map_eq_map.mp (mocSettings_plain g x b major minor) with
      ⟨fault, hfault, hfault'⟩ | ⟨m, m', hm, hm', heq⟩
    · rw [hfault, hfault']
    · rw [hm, hm']
      exact congrArg (fun settings => Except.ok (some settings)) heq

/-- What is found out about a target without looking at declarations that have no order. -/
theorem examine_plain [Environment] (g : Graph) (fs : FileSystem) (x : Target)
    (sources : List SourceFile) (ds : Diagnostics) :
    (g.plain.examine fs x.plain sources ds).1 = (g.examine fs x sources ds).1 ∧
      (g.plain.examine fs x.plain sources ds).2.map Findings.plain =
        (g.examine fs x sources ds).2.map Findings.plain := by
  have hclassifier : x.plain.classifier g.plain.settings = x.classifier g.settings := rfl
  have hproperties :
      x.plain.properties = { x.properties with autouicConfigOptions := .empty } := rfl
  have hbind (enabled : Bool) (tool : Tool) (version : String) :
      g.plain.bindEnabled x.plain enabled tool version = g.bindEnabled x enabled tool version := rfl
  have huic (c : Classification) (binding : ToolBinding) :
      (g.plain.uicSettings x.plain binding c).plain = (g.uicSettings x binding c).plain := rfl
  unfold examine
  rw [majorVersion_plain, hclassifier]
  simp only [minorVersion_plain, hbind, hproperties]
  generalize g.majorVersion x ds = major
  generalize g.minorVersion x major.1 major.2 = minor
  split
  · exact ⟨rfl, rfl⟩
  · rename_i c _ _
    rcases map_eq_map.mp
      (mapM_mocSettings_plain g x (g.bindEnabled x x.properties.automoc .moc major.1)
      major.1 minor.1) with ⟨fault, hfault, hfault'⟩ | ⟨moc, moc', hmoc, hmoc', heq⟩
    · simp only [hfault, hfault', and_self]
    · have huics : ((g.bindEnabled x x.properties.autouic .uic major.1).map fun binding =>
          g.plain.uicSettings x.plain binding c).map UicSettings.plain =
            ((g.bindEnabled x x.properties.autouic .uic major.1).map fun binding =>
              g.uicSettings x binding c).map UicSettings.plain := by
        rw [Option.map_map, Option.map_map]
        exact congrFun (congrArg Option.map (funext (huic c))) _
      simp only [hmoc, hmoc', Except.map, Findings.plain, heq, huics, and_self]

theorem addResources_congr [Environment] {r r' : DependencyRequest}
    (hbinding : r'.binding = r.binding) (hlister : r'.lister = r.lister) (tally : DependencyTally)
    (resources : List Resource) :
    r'.addResources fs tally resources = r.addResources fs tally resources := by
  have hinputs : r'.inputsOf = r.inputsOf := by
    unfold DependencyRequest.inputsOf
    rw [hbinding, hlister]
  induction resources generalizing tally with
  | nil => rfl
  | cons resource rest ih =>
    have hfirst : r'.addResource fs tally resource = r.addResource fs tally resource := by
      unfold DependencyRequest.addResource
      rw [hinputs]
    rw [DependencyRequest.addResources, DependencyRequest.addResources, hfirst]
    simp only [ih]

theorem collect_plain [Environment] (g : Graph) (fs : FileSystem) (x : Target)
    (binding : Option ToolBinding) (lister : ResourceLister) (c : Classification) :
    (x.plain.dependencyRequest binding lister).collect g.plain fs c =
      (x.dependencyRequest binding lister).collect g fs c := by
  have hbefore : (x.plain.dependencyRequest binding lister).before g.plain fs c =
      (x.dependencyRequest binding lister).before g fs c := rfl
  unfold DependencyRequest.collect
  rw [hbefore]
  split
  · rfl
  · exact addResources_congr (by rfl) (by rfl) _ _

theorem assemble_plain [Environment] {f f' : Findings} (h : f'.plain = f.plain)
    (g : Graph) (x : Target) (d : Dependencies) :
    (g.plain.assemble x.plain f' d).plain = (g.assemble x f d).plain := by
  have hface (g : Graph) (x : Target) (f : Findings) : (g.assemble x f d).plain =
      { g.plain.assemble x.plain f.plain d with configurations := [], configSuffixes := .empty } :=
        rfl
  rw [hface, hface, h]
  rfl

theorem concluded_plain [Environment] {f f' : Findings} (h : f'.plain = f.plain)
    (g : Graph) (x : Target) (collected : DependencyTally × Option PathFault) :
    (g.plain.concluded x.plain f' collected).map Plan.plain =
      (g.concluded x f collected).map Plan.plain := by
  have hclassification : f'.classification = f.classification :=
    (congrArg Findings.classification h :)
  have hroots : g.plain.checksumRoots x.plain = g.checksumRoots x := rfl
  unfold concluded
  rw [hclassification, hroots]
  split
  · rfl
  · split
    · rfl
    · exact congrArg Except.ok (assemble_plain h g x _)

/-- A plan is made without looking at declarations that have no order, but for what it says about
configurations. -/
theorem planRegistered_plain [Environment] (g : Graph) (fs : FileSystem) (lister : ResourceLister)
    (t : TargetId) (ds : Diagnostics) :
    (g.plain.planRegistered fs lister t ds).diagnostics =
      (g.planRegistered fs lister t ds).diagnostics ∧
      (g.plain.planRegistered fs lister t ds).result.map Plan.plain =
        (g.planRegistered fs lister t ds).result.map Plan.plain := by
  have hplanned : g.plannedSources t =
      ((g.plannedSources t).1, { g with store := (g.plannedSources t).2.store }) := rfl
  have hplanned' : g.plain.plannedSources t =
      ((g.plannedSources t).1, { g.plain with store := (g.plannedSources t).2.store.plain }) :=
    plannedSources_plain g t
  generalize (g.plannedSources t).2.store = store at hplanned hplanned'
  obtain ⟨hnoted, hfound⟩ := examine_plain { g with store } fs (g.target t)
    (g.plannedSources t).1 ds
  generalize hout :
    ({ g with store } : Graph).examine fs (g.target t) (g.plannedSources t).1 ds = out
  generalize hout' :
    ({ g with store } : Graph).plain.examine fs (g.target t).plain (g.plannedSources t).1 ds
    = out'
  rw [hout, hout'] at hnoted hfound
  rw [← target_plain] at hout'
  obtain ⟨noted, found⟩ := out
  obtain ⟨noted', found'⟩ := out'
  simp only at hnoted hfound
  subst hnoted
  rcases map_eq_map.mp hfound with ⟨fault, rfl, rfl⟩ | ⟨f', f, rfl, rfl, heq⟩
  · obtain ⟨hsaid, hresult⟩ := planRegistered_of_fault lister hplanned hout
    obtain ⟨hsaid', hresult'⟩ := planRegistered_of_fault lister hplanned' hout'
    rw [hsaid, hsaid', hresult, hresult']
    exact ⟨rfl, rfl⟩
  · obtain ⟨hsaid, hresult, -⟩ := planRegistered_of_findings lister hplanned hout
    obtain ⟨hsaid', hresult', -⟩ := planRegistered_of_findings lister hplanned' hout'
    have hbinding : f'.rccBinding = f.rccBinding := (congrArg Findings.rccBinding heq :)
    have hclassification : f'.classification = f.classification :=
      (congrArg Findings.classification heq :)
    rw [target_plain, hbinding, hclassification, collect_plain] at hsaid' hresult'
    rw [hsaid, hsaid', hresult, hresult']
    exact ⟨rfl, concluded_plain heq g (g.target t) _⟩

theorem withIncludeDir_plain (x : Target) (directory : Option String) :
    (x.withIncludeDir directory).plain = x.plain.withIncludeDir directory := by
  have hdirs : x.plain.includeDirectories = x.includeDirectories := rfl
  unfold Target.withIncludeDir Target.addIncludeDirectory
  split
  · rw [hdirs]
    split_ifs <;> rfl
  · rfl

theorem included_plain [Environment] (g : Graph) (t : TargetId) :
    (g.included t).plain = g.plain.included t := by
  have hdirectory :
      (g.plain.target t).includeDir? g.plain.settings = (g.target t).includeDir? g.settings := by
    rw [target_plain]
    rfl
  have hstore :
      (g.store.modifyTarget t fun x =>
        x.withIncludeDir ((g.target t).includeDir? g.settings)).plain =
      g.store.plain.modifyTarget t fun x =>
        x.withIncludeDir ((g.target t).includeDir? g.settings) :=
    Store.mapTargets_modifyTarget (fun x => withIncludeDir_plain x _) g.store t
  rw [included, included, hdirectory]
  exact congrArg (fun store : Store => { g.plain with store }) hstore

/-- Planning looks at declarations that have no order for what the plan says about configurations
alone. -/
theorem plan_plain [Environment] (g : Graph) (fs : FileSystem) (lister : ResourceLister)
    (t : TargetId) :
    (g.plain.plan fs lister t).diagnostics = (g.plan fs lister t).diagnostics ∧
      (g.plain.plan fs lister t).result.map Plan.plain =
        (g.plan fs lister t).result.map Plan.plain := by
  have henabled : (g.plain.target t).properties.anyGeneratorEnabled =
      (g.target t).properties.anyGeneratorEnabled := by
    rw [target_plain]
    rfl
  have hname : (g.plain.target t).name = (g.target t).name := by
    rw [target_plain]
    rfl
  rw [plan_eq, plan_eq, ← included_plain, henabled, hname]
  split
  · exact planRegistered_plain (g.included t) fs lister t _
  · exact ⟨rfl, rfl⟩

end Graph

/-! ## The same records -/

/-- Records that give the same values. -/
structure ConfigDiff.Same (d d' : ConfigDiff) : Prop where
  baseline : d'.baseline = d.baseline
  overrides : ∀ config, d'.overrides.get? config = d.overrides.get? config

theorem ConfigDiff.same_of {configs configs' : List String}
    (h : ∀ config, config ∈ configs' ↔ config ∈ configs) (baseline : String)
    (compute : String → String) :
    (ConfigDiff.of baseline configs compute).Same (.of baseline configs' compute) :=
  ⟨rfl, fun config => by simp only [get?_overrides_of, h]⟩

/-- Plans that say the same, of which the second one may give configurations in another order. -/
structure Plan.Reorders (p p' : Plan) : Prop where
  plain : p'.plain = p.plain
  suffixes : ∀ config, p'.configSuffixes.get? config = p.configSuffixes.get? config
  moc : ∀ m m', p.moc = some m → p'.moc = some m' →
    m.includes.Same m'.includes ∧ m.definitions.Same m'.definitions
  uic : ∀ u u', p.uic = some u → p'.uic = some u' → u.targetOptions.Same u'.targetOptions

namespace Plan

variable {p p' : Plan}

/-- Entries for configurations are sorted, so only the values of a map matter to them. -/
theorem overrideEntries_congr {values values' : OrderedMap String String}
    (h : ∀ config, values'.get? config = values.get? config) (start : String) :
    overrideEntries start values' = overrideEntries start values := by
  have hkeys : values'.keys.Perm values.keys := by
    refine (List.perm_ext_iff_of_nodup values'.nodup_keys values.nodup_keys).mpr fun config => ?_
    rw [← not_iff_not, ← OrderedMap.keys, ← OrderedMap.keys, ← OrderedMap.get?_eq_none,
      ← OrderedMap.get?_eq_none, h]
  unfold overrideEntries
  rw [Text.sorted_of_perm hkeys]
  exact List.map_congr_left fun config _ => by rw [h]

/-- Two optional settings that become the same, either both missing or both there. -/
theorem none_or_exists_of_map {α β : Type} {f : α → β} {o o' : Option α} (h : o'.map f = o.map f) :
    o' = none ∧ o = none ∨ ∃ a a', o = some a ∧ o' = some a' ∧ f a' = f a := by
  cases o <;> cases o'
  · exact .inl ⟨rfl, rfl⟩
  · cases h
  · cases h
  · exact .inr ⟨_, _, rfl, rfl, Option.some.inj h⟩

/-- The settings of moc of two plans, where both have some. -/
theorem Reorders.moc_cases (h : p.Reorders p') : p'.moc = none ∧ p.moc = none ∨
    ∃ m m', p.moc = some m ∧ p'.moc = some m' ∧ m'.plain = m.plain ∧
      m.includes.Same m'.includes ∧ m.definitions.Same m'.definitions := by
  have hplain : p'.moc.map MocSettings.plain = p.moc.map MocSettings.plain :=
    (congrArg Plan.moc h.plain :)
  refine (none_or_exists_of_map hplain).imp_right ?_
  rintro ⟨m, m', hm, hm', heq⟩
  exact ⟨m, m', hm, hm', heq, h.moc m m' hm hm'⟩

theorem Reorders.uic_cases (h : p.Reorders p') : p'.uic = none ∧ p.uic = none ∨
    ∃ u u', p.uic = some u ∧ p'.uic = some u' ∧ u'.plain = u.plain ∧
      u.targetOptions.Same u'.targetOptions := by
  have hplain : p'.uic.map UicSettings.plain = p.uic.map UicSettings.plain :=
    (congrArg Plan.uic h.plain :)
  refine (none_or_exists_of_map hplain).imp_right ?_
  rintro ⟨u, u', hu, hu', heq⟩
  exact ⟨u, u', hu, hu', heq, h.uic u u' hu hu'⟩

theorem Reorders.mocEntries (h : p.Reorders p') : p'.mocEntries = p.mocEntries := by
  have hclassification : p'.classification = p.classification :=
  (congrArg Plan.classification h.plain :)
  unfold Plan.mocEntries
  rw [hclassification]
  rcases h.moc_cases with ⟨hm', hm⟩ | ⟨m, m', hm, hm', hplain, hincludes, hdefinitions⟩
  · rw [hm, hm']
  · rw [hm, hm', MocSettings.eq_of_plain hplain]
    simp only [ofEnabled, hincludes.baseline, hdefinitions.baseline]

theorem Reorders.uicEntries (h : p.Reorders p') : p'.uicEntries = p.uicEntries := by
  have hclassification : p'.classification = p.classification :=
  (congrArg Plan.classification h.plain :)
  unfold Plan.uicEntries
  rw [hclassification]
  rcases h.uic_cases with ⟨hu', hu⟩ | ⟨u, u', hu, hu', hplain, hoptions⟩
  · rw [hu, hu']
  · rw [hu, hu', UicSettings.eq_of_plain hplain]
    simp only [ofEnabled, hoptions.baseline]

theorem Reorders.entries (h : p.Reorders p') : p'.entries = p.entries := by
  have htarget : p'.targetEntries = p.targetEntries := (congrArg Plan.targetEntries h.plain :)
  have hrcc : p'.rccEntries = p.rccEntries := (congrArg Plan.rccEntries h.plain :)
  rw [Plan.entries, Plan.entries, htarget, hrcc, h.mocEntries, h.uicEntries]

theorem Reorders.configurationEntries (h : p.Reorders p') :
    p'.configurationEntries = p.configurationEntries := by
  unfold Plan.configurationEntries
  rw [overrideEntries_congr h.suffixes]
  congr 1
  · congr 1
    rcases h.moc_cases with ⟨hm', hm⟩ | ⟨m, m', hm, hm', -, hincludes, hdefinitions⟩
    · rw [hm, hm']
    · simp only [hm, hm', overrideEntries_congr hincludes.overrides,
        overrideEntries_congr hdefinitions.overrides]
  · rcases h.uic_cases with ⟨hu', hu⟩ | ⟨u, u', hu, hu', -, hoptions⟩
    · rw [hu, hu']
    · simp only [hu, hu', overrideEntries_congr hoptions.overrides]

/-- Plans that say the same are written down in the same way. -/
theorem Reorders.render (h : p.Reorders p') : p'.render = p.render := by
  rw [Plan.render, Plan.render, sections, sections, h.entries, h.configurationEntries]

end Plan

namespace Graph

variable {g g' : Graph} {t : TargetId}

/-! ## Planning -/

theorem configSuffixes_of_reorders (h : g.Reorders g') (config : String) :
    g'.configSuffixes.get? config = g.configSuffixes.get? config := by
  have hmulti : g'.settings.multiConfig = g.settings.multiConfig :=
    (congrArg (fun g : Graph => g.settings.multiConfig) h.plain :)
  unfold configSuffixes
  rw [hmulti]
  split
  · simp only [OrderedMap.get?_ofList_map, List.mem_filter, h.mem_configurations]
  · rfl

/-- Targets that know their directories of generated headers have the same settings in every
configuration. -/
theorem Reorders.included [Environment] (h : g.Reorders g') (t : TargetId) :
    ((g'.included t).target t).plain = ((g.included t).target t).plain ∧
      ((g.included t).target t).Reorders ((g'.included t).target t) := by
  have htargets := h.targets t
  have hpart {α : Type} (part : Target → α)
      (hpart : ∀ x dirs, part { x with includeDirectories := dirs } = part x) (g : Graph) :
      part ((g.included t).target t) = part (g.target t) := part_included part hpart t
  refine ⟨?_, ⟨?_, ?_, ?_, ?_⟩⟩
  · rw [← target_plain, ← target_plain, included_plain, included_plain, h.plain]
  · rw [hpart (·.compileDefinitions) (fun _ _ => rfl) g,
      hpart (·.compileDefinitions) (fun _ _ => rfl) g']
    exact htargets.definitions
  · rw [hpart (·.configCompileDefinitions) (fun _ _ => rfl) g,
      hpart (·.configCompileDefinitions) (fun _ _ => rfl) g']
    exact htargets.configDefinitions
  · rw [hpart (·.configIncludeDirectories) (fun _ _ => rfl) g,
      hpart (·.configIncludeDirectories) (fun _ _ => rfl) g']
    exact htargets.configDirectories
  · rw [hpart (·.properties) (fun _ _ => rfl) g, hpart (·.properties) (fun _ _ => rfl) g']
    exact htargets.configOptions

/-- Plans of graphs whose declarations are reordered say the same. -/
theorem plans_of_reorders [Environment] (h : g.Reorders g') {fs : FileSystem}
    {lister : ResourceLister} {p p' : Plan} (hp : (g.plan fs lister t).result = .ok p)
    (hp' : (g'.plan fs lister t).result = .ok p') (hplain : p'.plain = p.plain) :
    p.Reorders p' := by
  have hrecords := records_of_included hp
  have hrecords' := records_of_included hp'
  have hbuild : g'.settings.buildType = g.settings.buildType :=
    (congrArg (fun g : Graph => g.settings.buildType) h.plain :)
  obtain ⟨hrest, htarget⟩ := h.included t
  refine ⟨hplain, fun config => ?_, fun m m' hm hm' => ?_, fun u u' hu hu' => ?_⟩
  · rw [configSuffixes_of_plan hp, configSuffixes_of_plan hp', configSuffixes_of_reorders h]
  · rw [(hrecords.moc m hm).1, (hrecords.moc m hm).2, (hrecords'.moc m' hm').1,
      (hrecords'.moc m' hm').2, hbuild]
    unfold Target.includesDiff Target.definitionsDiff
    rw [htarget.includeDirectoriesFor hrest, htarget.compileDefinitionsFor]
    exact ⟨ConfigDiff.same_of h.mem_configurations _ _, ConfigDiff.same_of h.mem_configurations _ _⟩
  · rw [hrecords.uic u hu, hrecords'.uic u' hu', hbuild]
    unfold Target.uicOptionsDiff
    rw [htarget.autouicOptionsFor hrest]
    exact ConfigDiff.same_of h.mem_configurations _ _

/-- Planning fails in the same way, or it makes plans that say the same. -/
theorem plan_of_reorders [Environment] (h : g.Reorders g') (fs : FileSystem)
    (lister : ResourceLister) (t : TargetId) :
    (g'.plan fs lister t).diagnostics = (g.plan fs lister t).diagnostics ∧
      ((∃ fault, (g'.plan fs lister t).result = .error fault ∧
        (g.plan fs lister t).result = .error fault) ∨
        ∃ p' p, (g'.plan fs lister t).result = .ok p' ∧ (g.plan fs lister t).result = .ok p ∧
          p.Reorders p') := by
  obtain ⟨hsaid, hresult⟩ := plan_plain g fs lister t
  obtain ⟨hsaid', hresult'⟩ := plan_plain g' fs lister t
  rw [h.plain] at hsaid' hresult'
  refine ⟨hsaid'.symm.trans hsaid, (map_eq_map.mp (hresult'.symm.trans hresult)).imp_right ?_⟩
  rintro ⟨p', p, hp', hp, hplain⟩
  exact ⟨p', p, hp', hp, plans_of_reorders h hp hp' hplain⟩

/-! ## Carrying out -/

/-- Effects that have the same settings, apart from the order of configurations, and in which the
same names are taken. -/
structure Effects.Alike (e e' : Effects) : Prop where
  settings :
    { e'.graph.settings with configurations := [] } = { e.graph.settings with configurations := [] }
  targets : e'.graph.targets = e.graph.targets
  importedTargets : e'.graph.importedTargets = e.graph.importedTargets
  diagnostics : e'.diagnostics = e.diagnostics

variable {e e' : Effects}

theorem Effects.Alike.registerSource (h : e.Alike e') (t : TargetId) (path : String) :
    Effects.Alike { e with graph := e.graph.registerSource t path }
      { e' with graph := e'.graph.registerSource t path } := by
  obtain ⟨store, heq⟩ := frame_registerSource e.graph t path
  obtain ⟨store', heq'⟩ := frame_registerSource e'.graph t path
  rw [heq, heq']
  exact ⟨h.settings, h.targets, h.importedTargets, h.diagnostics⟩

theorem groupFile_alike (h : e.Alike e') (file : GeneratedFile) :
    (groupFile e' file).2 = (groupFile e file).2 ∧
    (groupFile e file).1.Alike (groupFile e' file).1 := by
  have hgroup : e'.graph.settings.groupFor file.tool = e.graph.settings.groupFor file.tool :=
    (congrArg (fun settings : ProjectSettings => settings.groupFor file.tool) h.settings :)
  have hdelimiter :
      e'.graph.settings.sourceGroupDelimiter = e.graph.settings.sourceGroupDelimiter :=
    (congrArg ProjectSettings.sourceGroupDelimiter h.settings :)
  unfold groupFile
  rw [hgroup, hdelimiter]
  split
  · exact ⟨rfl, h⟩
  · rename_i name _
    simp only
    split
    · exact ⟨rfl, h⟩
    · split
      · exact ⟨rfl, h.settings, h.targets, h.importedTargets,
          congrArg (·.error (groupMessage name)) h.diagnostics⟩
      · exact ⟨rfl, h.settings, h.targets, h.importedTargets, h.diagnostics⟩

theorem registerFiles_alike (h : e.Alike e') (t : TargetId) (files : List GeneratedFile) :
    (registerFiles t e' files).2 = (registerFiles t e files).2 ∧
      (registerFiles t e files).1.Alike (registerFiles t e' files).1 := by
  induction files generalizing e e' with
  | nil => exact ⟨rfl, h⟩
  | cons file rest ih =>
    obtain ⟨hfault, halike⟩ := groupFile_alike (h.registerSource t file.path) file
    rw [registerFiles, registerFiles]
    generalize groupFile { e with graph := e.graph.registerSource t file.path } file = out
      at hfault halike ⊢
    generalize groupFile { e' with graph := e'.graph.registerSource t file.path } file = out'
      at hfault halike ⊢
    obtain ⟨next, fault⟩ := out
    obtain ⟨next', fault'⟩ := out'
    simp only at hfault halike
    subst hfault
    cases fault' with
    | some fault => exact ⟨rfl, halike⟩
    | none => exact ih halike

/-- Plans that say the same are carried out with the same outcome. -/
theorem emit_of_reorders [Environment] {p p' : Plan} (hp : p.Reorders p') {ds : Diagnostics}
    (h : Effects.Alike ⟨g, ds⟩ ⟨g', ds⟩) (fs : FileSystem) (t : TargetId) :
    (g'.emit fs t p' ds).files = (g.emit fs t p ds).files ∧
      (g'.emit fs t p' ds).result = (g.emit fs t p ds).result ∧
      (g'.emit fs t p' ds).diagnostics = (g.emit fs t p ds).diagnostics := by
  have hfiles : p'.generatedFiles = p.generatedFiles := (congrArg Plan.generatedFiles hp.plain :)
  have hname : p'.autogenTargetName = p.autogenTargetName :=
    (congrArg Plan.autogenTargetName hp.plain :)
  have hinfo : p'.infoFile = p.infoFile := (congrArg Plan.infoFile hp.plain :)
  have hprepared : (g.prepared t p ds).Alike (g'.prepared t p' ds) :=
    ⟨h.settings, h.targets, h.importedTargets, rfl⟩
  obtain ⟨hfault, halike⟩ := registerFiles_alike hprepared t p.generatedFiles
  rw [emit_eq, emit_eq, hfiles, hname, hinfo, hp.render]
  generalize registerFiles t (g.prepared t p ds) p.generatedFiles = out at hfault halike ⊢
  generalize registerFiles t (g'.prepared t p' ds) p.generatedFiles = out' at hfault halike ⊢
  obtain ⟨e, fault⟩ := out
  obtain ⟨e', fault'⟩ := out'
  simp only at hfault halike
  subst hfault
  have htaken : e'.graph.isTaken p.autogenTargetName = e.graph.isTaken p.autogenTargetName := by
    rw [isTaken, isTaken, halike.targets, halike.importedTargets]
  cases fault' with
  | some fault => exact ⟨rfl, rfl, halike.diagnostics⟩
  | none =>
    simp only [htaken]
    split_ifs
    · exact ⟨rfl, rfl, halike.diagnostics⟩
    · exact ⟨rfl, rfl, halike.diagnostics⟩

/-- The descriptor of a target is the same, byte for byte, in whatever order a project declares what
has no order. A run that returns for one order does so for every other one, writes the same text to
the same path and reports the same; and a run leaves the same files also where it fails. -/
theorem run_of_reorders [Environment] (h : g.Reorders g') (fs : FileSystem)
    (lister : ResourceLister) (t : TargetId) :
    (g'.run fs lister t).files = (g.run fs lister t).files ∧
      ∀ r, (g.run fs lister t).result = .ok r → ∃ r', (g'.run fs lister t).result = .ok r' ∧
        r'.descriptor = r.descriptor ∧ r'.plan.render = r.plan.render ∧
        r'.diagnostics = r.diagnostics := by
  obtain ⟨hsaid, ⟨fault, hp', hp⟩ | ⟨p', p, hp', hp, hreorders⟩⟩ := plan_of_reorders h fs lister t
  · rw [run_eq_of_error hp, run_eq_of_error hp']
    exact ⟨rfl, fun r hr => by cases hr⟩
  · obtain ⟨store, files, hgraph⟩ := frame_plan g fs lister t
    obtain ⟨store', files', hgraph'⟩ := frame_plan g' fs lister t
    have halike : Effects.Alike ⟨(g.plan fs lister t).graph, (g.plan fs lister t).diagnostics⟩
        ⟨(g'.plan fs lister t).graph, (g.plan fs lister t).diagnostics⟩ := by
      rw [hgraph, hgraph']
      exact ⟨(congrArg Graph.settings h.plain :), (congrArg Graph.targets h.plain :),
        (congrArg Graph.importedTargets h.plain :), rfl⟩
    obtain ⟨hfiles, hresult, hreported⟩ := emit_of_reorders hreorders halike fs t
    rw [run_eq_of_ok hp, run_eq_of_ok hp', hsaid]
    refine ⟨hfiles, fun r hr => ?_⟩
    cases hdone :
      ((g.plan fs lister t).graph.emit fs t p (g.plan fs lister t).diagnostics).result with
    | error fault =>
      simp only [hdone] at hr
      cases hr
    | ok path =>
      rw [hdone] at hresult
      simp only [hdone] at hr
      obtain rfl := Except.ok.inj hr
      simp only [hresult]
      exact ⟨_, rfl, rfl, hreorders.render, hreported⟩

attribute [local instance] Environment.plain

/-- The application in a project that declares the given configurations, with definitions of their
own. -/
def declaringProject (configurations : List String) (own : List (String × List String)) : Graph :=
  { appProject with
    settings := { appProject.settings with configurations }
    store := { appProject.store with targets := appProject.store.targets.map fun x =>
      { x with configCompileDefinitions := .ofList own } } }

theorem reorders_declaringProject :
    (declaringProject ["Debug", "Release"] [("Debug", ["LOG"]), ("Release", ["NDEBUG"])]).Reorders
      (declaringProject ["Release", "Debug", "Release"]
        [("Release", ["NDEBUG", "NDEBUG"]), ("Debug", ["LOG"])]) := by
  refine ⟨by decide +kernel, fun config => ?_, fun t => ?_⟩
  · simp only [declaringProject, List.mem_cons, List.not_mem_nil]
    tauto
  · cases t with
    | zero =>
      refine ⟨fun _ => .rfl, fun config definition => ?_, fun _ => rfl, fun _ => rfl⟩
      simp only [declaringProject, appProject, target, Store.target, List.map_cons,
        List.getD_cons_zero, OrderedMap.ofList, List.foldl_cons, List.foldl_nil,
        OrderedMap.get?_insert]
      split_ifs <;> simp_all
    | succ t => exact ⟨fun _ => .rfl, fun _ _ => .rfl, fun _ => rfl, fun _ => rfl⟩

/-- Two orders of configurations and of their definitions give one descriptor. -/
theorem run_of_reorders_declaringProject :
    let g := declaringProject ["Debug", "Release"] [("Debug", ["LOG"]), ("Release", ["NDEBUG"])]
    let g' := declaringProject ["Release", "Debug", "Release"]
      [("Release", ["NDEBUG", "NDEBUG"]), ("Debug", ["LOG"])]
    ∃ r r', (g.run (describedTree 0o644) declaredInputs 0).result = .ok r ∧
      (g'.run (describedTree 0o644) declaredInputs 0).result = .ok r' ∧
      r.plan.configSuffixes.toList = [("Debug", "_Debug"), ("Release", "_Release")] ∧
      r'.plan.render = r.plan.render ∧
      (g'.run (describedTree 0o644) declaredInputs 0).files =
        (g.run (describedTree 0o644) declaredInputs 0).files := by
  intro g g'
  obtain ⟨p, hplan, hachievable, hsuffixes⟩ :
      ∃ p, (g.plan (describedTree 0o644) declaredInputs 0).result = .ok p ∧
        g.Achievable (describedTree 0o644) p ∧
        p.configSuffixes.toList = [("Debug", "_Debug"), ("Release", "_Release")] := by
    decide +kernel
  have hkeys : ∀ config ∈ g.configurations, Descriptor.IsKey config := by decide
  obtain ⟨r, hr, rfl⟩ := run_of_achievable (wellFormed_of_unlinked (by decide) (by decide) rfl)
    (fresh_of_unremembered (by decide)) (fun config hconfig => (hkeys config hconfig).2)
      (by decide) hplan
    hachievable
  obtain ⟨hfiles, hruns⟩ := run_of_reorders reorders_declaringProject (describedTree 0o644)
    declaredInputs 0
  obtain ⟨r', hr', -, hrender, -⟩ := hruns r hr
  exact ⟨r, r', hr, hr', hsuffixes, hrender, hfiles⟩

end Graph

end Autogen
