import Autogen.Proofs.Classification.Inputs
import Autogen.Proofs.Dependencies
import Autogen.Proofs.Layout
import Autogen.Proofs.Plan.Effects

/-!
# Plans of one target compared

A plan is made from little of what a graph and a tree of files hold. Where that little is the same,
the plans are the same, whatever else has been planned and written in between.

## Main definitions

* `Store.inputs` — the sources of a target that can be inputs of its generators.
* `Graph.Alike`, `Graph.KnownAlike` — graphs in which the plan of a target is made from the same
  things.
* `Graph.Anchored` — what the paths of a target are taken from is there.

## Main statements

* `Graph.planRegistered_alike` — plans of a target that are made from the same things match.
* `Graph.plan_alike` — the plan of a target in a graph and a tree that have grown.
-/

namespace Autogen

open FileSystem

variable {fs fs' : FileSystem}

/-! ## Inputs -/

/-- The sources of a target that can be inputs: what an earlier plan generates is never one. -/
def Store.inputs (s : Store) (t : TargetId) : List SourceFile :=
  (s.ownSources t).filter fun source => !source.autogenOutput

/-- The inputs stay as long as none of them is an output. -/
theorem Store.Grows.inputs {planned : Set TargetId} {outputs : Set String}
    {s s' : Store} {t : TargetId} (h : s.Grows planned outputs s') (hlinked : s.Linked)
    (havoid : ∀ source ∈ s.inputs t, source.path ∉ outputs) : s'.inputs t = s.inputs t := by
  obtain ⟨added, hsources, hadded⟩ := h.sources t
  have hnew : ((added.map s'.source).filter fun source => !source.autogenOutput) = [] := by
    refine List.filter_eq_nil_iff.mpr fun source hsource => ?_
    obtain ⟨id, hid, rfl⟩ := List.mem_map.mp hsource
    rw [← (hadded id hid).2.2]
    simp [Graph.markOutput]
  -- Only a source at the path of an output is marked, and such a source was no input before either.
  have hold : ∀ ids : List SourceId, (∀ id ∈ ids, id ∈ (s.target t).sources) →
      ((ids.map s'.source).filter fun source => !source.autogenOutput) =
        (ids.map s.source).filter fun source => !source.autogenOutput := by
    intro ids hids
    induction ids with
    | nil => rfl
    | cons id rest ih =>
      have hrest := ih fun other hother => hids other (List.mem_cons_of_mem _ hother)
      have hid := hids id List.mem_cons_self
      simp only [List.map_cons, List.filter_cons, hrest]
      rcases h.source id (hlinked.source_lt t id hid) with heq | ⟨hout, heq⟩
      · rw [heq]
      · have hflagged : (s.source id).autogenOutput = true := by
          by_contra hunflagged
          refine havoid (s.source id) (List.mem_filter.mpr ⟨List.mem_map_of_mem hid, ?_⟩) hout
          simpa using hunflagged
        rw [heq]
        simp [Graph.markOutput, hflagged]
  rw [Store.inputs, Store.inputs, Store.ownSources, Store.ownSources, hsources, List.map_append,
    List.filter_append, hnew, List.append_nil]
  exact hold _ fun _ hid => hid

/-! ## Plans -/

namespace Graph

variable {g g' : Graph} {t : TargetId} {x x' : Target} {lister : ResourceLister}

/-- Graphs in which the plan of a target is made from the same things. More names may be known in
the second one. -/
structure Alike (t : TargetId) (g g' : Graph) : Prop where
  settings : g'.settings = g.settings
  targets : g'.targets = g.targets
  importedTargets : g'.importedTargets = g.importedTargets
  properties : ∀ u, (g'.target u).properties = (g.target u).properties
  face : (g'.target t).face = (g.target t).face
  inputs : g'.store.inputs t = g.store.inputs t
  known : ∀ name, g.isKnown name = true → g'.isKnown name = true

/-- Graphs in which the names that the dependencies of a target are made from are known alike. -/
structure KnownAlike (t : TargetId) (g g' : Graph) : Prop where
  tokens : ∀ token ∈ (g.target t).properties.autogenTargetDepends,
    g'.isKnown token = g.isKnown token
  linked : ∀ binding lister, ((g'.target t).dependencyRequest binding lister).linked g' =
    ((g.target t).dependencyRequest binding lister).linked g

/-- What the paths of a target are taken from is there. -/
structure Anchored [Environment] (g : Graph) (fs : FileSystem) (t : TargetId) : Prop where
  sourceDir : fs.Holds (Path.ofString (g.target t).sourceDir)
  inputs : ∀ source ∈ g.store.inputs t, fs.Holds (Path.ofString source.path)

/-- What is remembered makes no difference. -/
theorem Alike.of_bare {store store' : Store} (h : g.Alike t g') (hbare : store.bare = g.store.bare)
    (hbare' : store'.bare = g'.store.bare) :
    Alike t { g with store } { g' with store := store' } := by
  have hinputs {s s' : Store} (heq : s.bare = s'.bare) : s.inputs t = s'.inputs t := by
    rw [Store.inputs, Store.inputs, Store.ownSources_of_bare heq]
  have hpart {α : Type} (part : Target → α) (hpart : ∀ x, part x.bare = part x) (u : TargetId)
      (heq : part (g'.target u) = part (g.target u)) :
      part (store'.target u) = part (store.target u) := by
    rw [Store.part_eq_of_bare part hpart hbare, Store.part_eq_of_bare part hpart hbare']
    exact heq
  exact ⟨h.settings, h.targets, h.importedTargets,
    fun u => hpart (·.properties) (fun _ => rfl) u (h.properties u),
    hpart Target.face (fun _ => rfl) t h.face,
    by rw [hinputs hbare, hinputs hbare', h.inputs], h.known⟩

/-! ### Classified sources -/

theorem interfaceValues_alike (h : g.Alike t g') (x : Target)
    (read : TargetProperties → Option String) :
    g'.interfaceValues x read = g.interfaceValues x read := by
  unfold interfaceValues
  rw [h.targets]
  simp only [h.properties]

theorem versionOf_alike (h : g.Alike t g') (x : Target) (explicit : Option String)
    (read : TargetProperties → Option String) (property : String) (ofProject : Option String)
    (ds : Diagnostics) : g'.versionOf x explicit read property ofProject ds =
      g.versionOf x explicit read property ofProject ds := by
  unfold versionOf propagated
  rw [interfaceValues_alike h]

theorem bindTool_alike (h : g.Alike t g') : g'.bindTool = g.bindTool := by
  funext target tool version
  unfold bindTool findImported?
  rw [h.importedTargets]

/-- Sources are examined the same way in graphs that are alike. -/
theorem examine_alike [Environment] (h : g.Alike t g') (fs : FileSystem) (x : Target)
    (sources : List SourceFile) (ds : Diagnostics) :
    g'.examine fs x sources ds = g.examine fs x sources ds := by
  unfold examine majorVersion minorVersion bindEnabled mocSettings uicSettings configurations
  simp only [versionOf_alike h, bindTool_alike h, h.settings]

/-- Sources are examined the same way, however the target has been changed by planning. -/
theorem examine_face [Environment] (hx : x'.face = x.face) (fs : FileSystem)
    (sources : List SourceFile) (ds : Diagnostics) :
    g.examine fs x' sources ds = g.examine fs x sources ds := by
  have hface (y : Target) : g.examine fs y sources ds = g.examine fs y.face sources ds := rfl
  rw [hface x', hface x, hx]

/-- What is found out about a target in a tree that has grown, if the inputs are the same. -/
theorem examine_grows [Environment] (hgrows : fs.Grows fs') (htree : fs.IsTree)
    {sources sources' : List SourceFile} (hsources : sources'.filter (fun s => !s.autogenOutput) =
      sources.filter fun s => !s.autogenOutput)
    (hholds : ∀ s ∈ sources.filter (fun s => !s.autogenOutput), fs.Holds (Path.ofString s.path))
    (ds : Diagnostics) :
    g.examine fs' x sources' ds = g.examine fs x sources ds ∨
      ∃ fault noted, fs.LinkLoop fault ∧ g.examine fs' x sources' ds =
        (noted, .error (.path fault)) := by
  have hclass : Follows fs.LinkLoop ((x.classifier g.settings).classify fs sources)
      ((x.classifier g.settings).classify fs' sources') := by
    have hfilter (tree : FileSystem) (sources : List SourceFile) :
        (x.classifier g.settings).classify tree sources = (x.classifier g.settings).classify tree
          (sources.filter fun s => !s.autogenOutput) := Classifier.classify_filter.symm
    rw [hfilter fs sources, hfilter fs' sources', hsources]
    exact Classifier.classify_grows hgrows htree hholds
  unfold examine
  rcases hclass with heq | ⟨fault, hloop, heq⟩
  · rw [heq]
    exact .inl rfl
  · rw [heq]
    exact .inr ⟨fault, _, hloop, rfl⟩

theorem resources_of_examine [Environment] {sources : List SourceFile}
    {ds : Diagnostics} {f : Findings} (h : (g.examine fs x sources ds).2 = .ok f) :
    ∀ resource ∈ f.classification.resources, startsAtRoot resource.path = true := by
  obtain ⟨-, -, -, -, -, warnings, hclassify, -⟩ := findings_of_examine (Prod.ext rfl h)
  exact Classifier.startsAtRoot_of_classify hclassify

/-! ### Plans that match -/

theorem checksumRoots_face (hsettings : g'.settings = g.settings) (hx : x'.face = x.face) :
    g'.checksumRoots x' = g.checksumRoots x := by
  have hface (g : Graph) (y : Target) :
      g.checksumRoots y = (ofSettings g.settings).checksumRoots y.face :=
    rfl
  rw [hface g' x', hface g x, hsettings, hx]

theorem assemble_face [Environment] (hsettings : g'.settings = g.settings) (hx : x'.face = x.face)
    (f : Findings) (d : Dependencies) : g'.assemble x' f d = g.assemble x f d := by
  have hface (g : Graph) (y : Target) :
      g.assemble y f d = (ofSettings g.settings).assemble y.face f d :=
    rfl
  rw [hface g' x', hface g x, hsettings, hx]

/-- Of the dependencies, a plan has the inputs of resource files in several places. -/
theorem assemble_inputs [Environment] (f : Findings) {d d' : Dependencies}
    (h : d'.resourceInputs = d.resourceInputs) :
    { g.assemble x f d' with dependencies := (g.assemble x f d).dependencies } =
      g.assemble x f d := by
  unfold assemble
  rw [h]

/-- Outcomes with the same plan up to the dependencies, and with the same result if the names that
these are made from are known alike. -/
structure PlansMatch (same : Prop) (o o' : PlanOutcome) : Prop where
  equal : same → o'.result = o.result ∧ o'.diagnostics = o.diagnostics
  plan : ∀ p, o.result = .ok p → o'.diagnostics = o.diagnostics ∧
    ∃ q, o'.result = .ok q ∧ { q with dependencies := p.dependencies } = p

/-- Outcomes that match, or of which the second one says that a loop was met. -/
def OutcomesMatch [Environment] (fs : FileSystem) (same : Prop) (o o' : PlanOutcome) : Prop :=
  (∃ fault, fs.LinkLoop fault ∧ o'.result = .error (.path fault)) ∨ PlansMatch same o o'

/-- The plan that is concluded from what is known about a target and what was collected for it. -/
def concluded [Environment] (g : Graph) (x : Target) (f : Findings)
    (collected : DependencyTally × Option PathFault) :
    Except PlanFault Plan :=
  match collected.2 with
  | some fault => .error (.path fault)
  | none =>
    match requireChecksums (f.classification.resources.map (·.path)) (g.checksumRoots x) with
    | .error fault => .error (.path (.spelling fault))
    | .ok () => .ok (g.assemble x f collected.1.found)

theorem concluded_eq_ok [Environment] {f : Findings}
    {collected : DependencyTally × Option PathFault} {p : Plan}
    (h : g.concluded x f collected = .ok p) :
    collected.2 = none ∧ p = g.assemble x f collected.1.found := by
  unfold concluded at h
  split at h
  · cases h
  · rename_i hnone
    split at h
    · cases h
    · exact ⟨hnone, (Except.ok.inj h).symm⟩

/-- No plan is concluded where a path was met that has no canonical form, or where a resource file
has no checksum. -/
theorem concluded_eq_error [Environment] {f : Findings}
    {collected : DependencyTally × Option PathFault} {fault : PlanFault}
    (h : g.concluded x f collected = .error fault) :
    ∃ cause, fault = .path cause ∧ (collected.2 = some cause ∨ cause = .spelling .unencodable ∧
      ∃ resource ∈ f.classification.resources,
        Text.isEncodable (checksumSeed resource.path (g.checksumRoots x)) = false) := by
  unfold concluded at h
  split at h
  · rename_i cause hcollected
    cases h
    exact ⟨cause, rfl, .inl hcollected⟩
  · split at h
    · rename_i hchecksums
      cases h
      obtain ⟨rfl, path, hpath, hseed⟩ := requireChecksums_eq_error hchecksums
      obtain ⟨resource, hresource, rfl⟩ := List.mem_map.mp hpath
      exact ⟨_, rfl, .inr ⟨rfl, resource, hresource, hseed⟩⟩
    · cases h

/-- Planning concludes a plan from what is found out and collected. -/
theorem planRegistered_of_findings [Environment] (lister : ResourceLister) {fs : FileSystem}
    {ds noted : Diagnostics} {f : Findings} {sources : List SourceFile} {store : Store}
    (hplanned : g.plannedSources t = (sources, { g with store }))
    (hexamine : ({ g with store } : Graph).examine fs (g.target t) sources ds = (noted, .ok f)) :
    let collected := ((g.target t).dependencyRequest f.rccBinding lister).collect
      g fs f.classification
    (g.planRegistered fs lister t ds).diagnostics = noted.errors collected.1.failures ∧
      (g.planRegistered fs lister t ds).result = g.concluded (g.target t) f collected ∧
      (g.planRegistered fs lister t ds).graph.reconfigureFiles =
        g.reconfigureFiles.insertAll collected.1.found.reconfigureFiles.toList := by
  have hcollect : ((g.target t).dependencyRequest f.rccBinding lister).collect { g with store } fs
      f.classification = ((g.target t).dependencyRequest f.rccBinding lister).collect g fs
        f.classification := rfl
  unfold planRegistered collectDependencies concluded
  simp only [hplanned, hexamine, hcollect]
  generalize ((g.target t).dependencyRequest f.rccBinding lister).collect g fs
    f.classification = collected
  obtain ⟨tally, fault⟩ := collected
  cases fault with
  | some fault => exact ⟨rfl, rfl, rfl⟩
  | none =>
    have hroots (files : List String) : (({ g with store } : Graph).addReconfigureFiles files
        |>.clearSources t).checksumRoots (g.target t) = g.checksumRoots (g.target t) := rfl
    simp only [hroots]
    cases requireChecksums (f.classification.resources.map (·.path))
      (g.checksumRoots (g.target t)) with
    | error fault => exact ⟨rfl, rfl, rfl⟩
    | ok => exact ⟨rfl, rfl, rfl⟩

theorem planRegistered_of_fault [Environment] (lister : ResourceLister) {fs : FileSystem}
    {ds noted : Diagnostics} {fault : PlanFault} {sources : List SourceFile} {store : Store}
    (hplanned : g.plannedSources t = (sources, { g with store }))
    (hexamine : ({ g with store } : Graph).examine fs (g.target t) sources ds =
      (noted, .error fault)) :
    (g.planRegistered fs lister t ds).diagnostics = noted ∧
      (g.planRegistered fs lister t ds).result = .error fault := by
  unfold planRegistered
  simp only [hplanned, hexamine, and_self]

/-- What a plan that is made was made from. -/
theorem exists_findings [Environment] (hg : g.WellFormed) (hfresh : g.Fresh) {fs : FileSystem}
    {ds : Diagnostics} {p : Plan} (h : (g.planRegistered fs lister t ds).result = .ok p) :
    ∃ store noted f, store.bare = g.store.bare ∧
      ({ g with store } : Graph).examine fs (g.target t) (g.store.ownSources t) ds =
        (noted, .ok f) ∧
      let collected := ((g.target t).dependencyRequest f.rccBinding lister).collect
        g fs f.classification
      collected.2 = none ∧ p = g.assemble (g.target t) f collected.1.found ∧
        (g.planRegistered fs lister t ds).diagnostics = noted.errors collected.1.failures ∧
        (g.planRegistered fs lister t ds).graph.reconfigureFiles =
          g.reconfigureFiles.insertAll collected.1.found.reconfigureFiles.toList := by
  obtain ⟨store, hplanned, hbare, -⟩ := plannedSources_eq hg hfresh t
  rcases hexamine :
    ({ g with store } : Graph).examine fs (g.target t) (g.store.ownSources t) ds with
    ⟨noted, fault | f⟩
  · rw [(planRegistered_of_fault lister hplanned hexamine).2] at h
    cases h
  · obtain ⟨hnoted, hresult, hfiles⟩ := planRegistered_of_findings lister hplanned hexamine
    obtain ⟨hcollected, hp⟩ := concluded_eq_ok (hresult.symm.trans h)
    exact ⟨store, noted, f, hbare, hexamine, hcollected, hp, hnoted, hfiles⟩

/-- A plan makes its resource files call for a new configuration. -/
theorem reconfigureFiles_of_plan [Environment] (hg : g.WellFormed) (hfresh : g.Fresh)
    {fs : FileSystem} {ds : Diagnostics} {p : Plan}
    (h : (g.planRegistered fs lister t ds).result = .ok p) :
    (g.planRegistered fs lister t ds).graph.reconfigureFiles = g.reconfigureFiles.insertAll
      (OrderedSet.ofList
        ((p.classification.resources.filter (!·.generated)).map (·.path))).toList := by
  obtain ⟨store, noted, f, -, -, hcollected, rfl, -, hfiles⟩ := exists_findings hg hfresh h
  rw [hfiles, DependencyRequest.reconfigureFiles_collect _ hcollected]
  rfl

/-- Plans that are concluded from matching tallies. -/
theorem concluded_matches [Environment] {same : Prop}
    {collected collected' : DependencyTally × Option PathFault}
    (hsettings : g'.settings = g.settings) (hx : x'.face = x.face) (f : Findings)
    (h : DependencyRequest.OutcomesMatch fs same collected collected') :
    (∃ fault, fs.LinkLoop fault ∧ g'.concluded x' f collected' = .error (.path fault)) ∨
      (same → g'.concluded x' f collected' = g.concluded x f collected) ∧
        ∀ p, g.concluded x f collected = .ok p → ∃ q, g'.concluded x' f collected' = .ok q ∧
          { q with dependencies := p.dependencies } = p := by
  unfold concluded
  rw [checksumRoots_face hsettings hx]
  rcases h with ⟨fault, hloop, heq⟩ | ⟨heq, hmatches⟩
  · rw [heq]
    exact .inl ⟨fault, hloop, rfl⟩
  · rw [heq]
    refine .inr ⟨fun hsame => ?_, fun p hp => ?_⟩
    · split
      · rfl
      · split
        · rfl
        -- The tallies may differ in the files that call for a new configuration, which are not part
        -- of a plan.
        · have hplan : g.assemble x f collected'.1.found = g.assemble x f collected.1.found := by
            unfold assemble
            rw [hmatches.resourceInputs, hmatches.depends hsame]
          rw [assemble_face hsettings hx, hplan]
    · split at hp
      · cases hp
      · split at hp
        · cases hp
        · obtain rfl := Except.ok.inj hp
          refine ⟨g'.assemble x' f collected'.1.found, rfl, ?_⟩
          rw [assemble_face hsettings hx]
          exact assemble_inputs f hmatches.resourceInputs

/-- Plans of a target that are made from the same things match. -/
theorem planRegistered_alike [Environment] (hg : g.WellFormed) (hfresh : g.Fresh)
    (hg' : g'.WellFormed) (hfresh' : g'.Fresh) (h : g.Alike t g') (hgrows : fs.Grows fs')
    (htree : fs.IsTree) (hlister : ResourceLister.Steady lister) (hanchored : g.Anchored fs t)
    (ds : Diagnostics) :
    OutcomesMatch fs (g.KnownAlike t g') (g.planRegistered fs lister t ds)
      (g'.planRegistered fs' lister t ds) := by
  obtain ⟨store, hplanned, hbare, -⟩ := plannedSources_eq hg hfresh t
  obtain ⟨store', hplanned', hbare', -⟩ := plannedSources_eq hg' hfresh' t
  have hafter : ({ g' with store := store' } : Graph).examine fs' (g'.target t)
      (g'.store.ownSources t) ds =
      ({ g with store } : Graph).examine fs' (g.target t) (g'.store.ownSources t) ds := by
    rw [examine_alike (h.of_bare hbare hbare'), examine_face h.face]
  have hexamine := examine_grows (g := { g with store }) (x := g.target t) hgrows htree h.inputs
    hanchored.inputs ds
  rw [← hafter] at hexamine
  have hloops {cause : PathFault} {noted : Diagnostics} (hloop : fs.LinkLoop cause)
      (heq : ({ g' with store := store' } : Graph).examine fs' (g'.target t)
        (g'.store.ownSources t) ds =
        (noted, .error (.path cause))) : ∃ fault, fs.LinkLoop fault ∧
          (g'.planRegistered fs' lister t ds).result = .error (.path fault) :=
    ⟨cause, hloop, (planRegistered_of_fault lister hplanned' heq).2⟩
  rcases hexamine with heq | ⟨cause, noted, hloop, heq⟩
  · rcases hbefore :
      ({ g with store } : Graph).examine fs (g.target t) (g.store.ownSources t) ds with
      ⟨noted, fault | f⟩
    · obtain ⟨hnoted, hresult⟩ := planRegistered_of_fault lister hplanned hbefore
      obtain ⟨hnoted', hresult'⟩ := planRegistered_of_fault lister hplanned' (heq.trans hbefore)
      refine .inr ⟨fun _ => ⟨hresult'.trans hresult.symm, hnoted'.trans hnoted.symm⟩,
        fun p hp => ?_⟩
      rw [hresult] at hp
      cases hp
    · obtain ⟨hnoted, hresult, -⟩ := planRegistered_of_findings lister hplanned hbefore
      obtain ⟨hnoted', hresult', -⟩ :=
        planRegistered_of_findings lister hplanned' (heq.trans hbefore)
      have hpaths := resources_of_examine (congrArg Prod.snd hbefore)
      have hname : (g'.target t).face.autogenName = (g.target t).face.autogenName :=
        congrArg Target.autogenName h.face
      have hr : ((g.target t).dependencyRequest f.rccBinding lister).Alike
          ((g'.target t).dependencyRequest f.rccBinding lister) :=
        ⟨h.face, congrArg (fun name => [name]) hname, rfl, rfl⟩
      -- Where neither the names are known alike nor a plan is made, there is nothing to compare.
      by_cases hneed : g.KnownAlike t g' ∨ ∃ p, (g.planRegistered fs lister t ds).result = .ok p
      · have hcollected := hneed.imp_right fun ⟨p, hp⟩ =>
            (concluded_eq_ok (hresult.symm.trans hp)).1
        have hmatch := DependencyRequest.collect_matches hgrows htree hr hlister hpaths
          (DependencyRequest.before_survives hgrows htree hr hanchored.sourceDir h.known)
          (fun hsame =>
            DependencyRequest.before_follows hgrows htree hr hanchored.sourceDir hsame.tokens
            (hsame.linked _ _)) hcollected
        rcases concluded_matches h.settings h.face f hmatch
          with ⟨fault, hloop, hfault⟩ | ⟨hequal, hplan⟩
        · exact .inl ⟨fault, hloop, hresult'.trans hfault⟩
        · rcases hmatch with ⟨fault, hloop, hfault⟩ | ⟨-, htallies⟩
          · refine .inl ⟨fault, hloop, ?_⟩
            rw [hresult', concluded, hfault]
          · have hsame : (g'.planRegistered fs' lister t ds).diagnostics =
                (g.planRegistered fs lister t ds).diagnostics := by
              rw [hnoted, hnoted', htallies.failures]
            refine .inr ⟨fun hknown => ⟨?_, hsame⟩, fun p hp => ⟨hsame, ?_⟩⟩
            · rw [hresult, hresult', hequal hknown]
            · rw [hresult']
              exact hplan p (hresult.symm.trans hp)
      · exact .inr ⟨fun hknown => absurd (.inl hknown) hneed, fun p hp =>
          absurd (.inr ⟨p, hp⟩) hneed⟩
  · exact .inl (hloops hloop heq)

/-! ### In a graph that has grown -/

section Grows

variable {planned : Set TargetId} {outputs : Set String}

/-- A name is known as before unless it is that of a planned step. -/
theorem isKnown_of_unplanned (h : g.Grows planned outputs g') {name : String}
    (hname : ∀ u ∈ planned, name ≠ (g.target u).autogenName) :
    g'.isKnown name = g.isKnown name := by
  have hsteps : g'.utilitySteps.contains name = g.utilitySteps.contains name := by
    refine Bool.eq_iff_iff.mpr ⟨fun hnew => ?_, h.steps name⟩
    rcases h.newSteps name hnew with hold | ⟨u, hu, heq⟩
    · exact hold
    · exact absurd heq (hname u hu)
  rw [isKnown, isKnown, isTaken, isTaken, h.targets, h.importedTargets, hsteps]

theorem isKnown_grows (h : g.Grows planned outputs g') {name : String}
    (hknown : g.isKnown name = true) :
    g'.isKnown name = true := by
  rw [isKnown, isTaken, Bool.or_eq_true] at hknown ⊢
  rw [h.targets, h.importedTargets]
  exact hknown.imp_right (h.steps name)

theorem inputs_included [Environment] (g : Graph) (t u : TargetId) :
    (g.included t).store.inputs u = g.store.inputs u := by
  have hsources : ((g.included t).store.target u).sources = (g.store.target u).sources :=
    part_included Target.sources (fun _ _ => rfl) u
  rw [Store.inputs, Store.inputs, Store.ownSources, Store.ownSources, hsources]
  rfl

/-- Growth that leaves the inputs of a target alone leaves everything that its plan is made from, if
its include directories are the same. -/
theorem Grows.alike [Environment] (h : g.Grows planned outputs g') (hg : g.WellFormed)
    (havoid : ∀ source ∈ g.store.inputs t, source.path ∉ outputs)
    (hface : ((g'.included t).target t).face = ((g.included t).target t).face) :
    (g.included t).Alike t (g'.included t) where
  settings := h.settings
  targets := h.targets
  importedTargets := h.importedTargets
  properties u := by
    rw [part_included (·.properties) (fun _ _ => rfl) u,
      part_included (·.properties) (fun _ _ => rfl) u]
    exact h.part (·.properties) (fun _ => rfl) u
  face := hface
  inputs := by
    rw [inputs_included, inputs_included]
    exact h.store.inputs hg.linked havoid
  known _ hknown := isKnown_grows h hknown

theorem Anchored.included [Environment] (h : g.Anchored fs t) : (g.included t).Anchored fs t where
  sourceDir := by
    rw [part_included (·.sourceDir) fun _ _ => rfl]
    exact h.sourceDir
  inputs := by
    rw [inputs_included]
    exact h.inputs

/-- Plans of a target compared: in a graph that has grown, which left the inputs and the include
directories of the target alone, and in a tree that has grown, the plan is the same. -/
theorem plan_alike [Environment] (hg : g.WellFormed) (hfresh : g.Fresh) (hfresh' : g'.Fresh)
    (h : g.Grows planned outputs g') (havoid : ∀ source ∈ g.store.inputs t, source.path ∉ outputs)
    (hface : ((g'.included t).target t).face = ((g.included t).target t).face)
    (hgrows : fs.Grows fs') (htree : fs.IsTree) (hlister : ResourceLister.Steady lister)
    (hanchored : g.Anchored fs t) :
    OutcomesMatch fs ((g.included t).KnownAlike t (g'.included t)) (g.plan fs lister t)
      (g'.plan fs' lister t) := by
  have hproperties : (g'.target t).properties = (g.target t).properties :=
    h.part (·.properties) (fun _ => rfl) t
  have hname : (g'.target t).name = (g.target t).name := h.part (·.name) (fun _ => rfl) t
  rw [plan_eq, plan_eq, hproperties, hname]
  split
  · have hg' : g'.WellFormed := hg.grows h
    exact planRegistered_alike (hg.grows (included_grows g t : g.Grows {t} ∅ _))
      (fresh_included hg hfresh)
      (hg'.grows (included_grows g' t : g'.Grows {t} ∅ _)) (fresh_included hg' hfresh')
      (h.alike hg havoid hface) hgrows htree hlister hanchored.included _
  · exact .inr ⟨fun _ => ⟨rfl, rfl⟩, fun p hp => by cases hp⟩

end Grows

end Graph

end Autogen
