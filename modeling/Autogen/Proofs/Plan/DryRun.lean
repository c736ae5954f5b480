import Autogen.Proofs.Graph.Remembered
import Autogen.Proofs.Plan.Rerun

/-!
# Planning before running

A plan can be made without carrying it out. That notes the directory of generated headers of the
target and the resource files that call for a new configuration, and it merges source lists; a run
that follows does the same once more and finds it done, so it ends like a run that nothing came
before.

## Main definitions

* `Graph.NotesOnly` — what making a plan changes in a graph.

## Main statements

* `Graph.emit_bare` — what is remembered makes no difference to carrying out a plan.
* `Graph.plan_again` — the plan of a target that has just been planned.
* `Graph.run_of_planned` — a run after a plan.
* `Graph.run_again_of_calls` — the graphs are the same too, whatever was called before the plan.
-/

namespace Autogen

/-! ## Without what is remembered -/

namespace Store

theorem bare_modifyTarget_comm {f : Target → Target} (hf : ∀ x, (f x).bare = f x.bare) (s : Store)
    (t : TargetId) : (s.modifyTarget t f).bare = s.bare.modifyTarget t f :=
  mapTargets_modifyTarget hf s t

theorem findPath?_bare (s : Store) : s.bare.findPath? = s.findPath? := rfl

theorem addSource_bare (s : Store) (t : TargetId) (id : SourceId) :
    s.bare.addSource t id = ((s.addSource t id).1, (s.addSource t id).2.bare) := by
  have hsources : (s.bare.target t).sources = (s.target t).sources := by rw [target_bare]; rfl
  unfold addSource
  rw [hsources, findPath?_bare, path_bare]
  split
  · rfl
  · exact congrArg (Prod.mk id) (bare_modifyTarget_comm
      (f := fun x => { x with sources := x.sources ++ [id] }) (fun _ => rfl) s t).symm

end Store

namespace Graph

variable {g g' : Graph} {t : TargetId} {fs : FileSystem} {lister : ResourceLister} {p : Plan}
  {ds : Diagnostics}

theorem target_bare (g : Graph) (u : TargetId) : g.bare.target u = (g.target u).bare :=
  Store.target_bare g.store u

theorem declaredSource?_bare (g : Graph) (path : String) :
    g.bare.declaredSource? path = g.declaredSource? path := by
  unfold declaredSource?
  simp only [target_bare]
  rfl

theorem sourceFor_bare (g : Graph) (path : String) :
    g.bare.sourceFor path = ((g.sourceFor path).1, (g.sourceFor path).2.bare) := by
  have hindex : g.bare.sourceIndex = g.sourceIndex := rfl
  unfold sourceFor
  rw [declaredSource?_bare, hindex]
  cases g.sourceIndex.get? path with
  | some id => rfl
  | none => cases g.declaredSource? path <;> rfl

theorem registerSource_bare (g : Graph) (t : TargetId) (path : String) :
    g.bare.registerSource t path = (g.registerSource t path).bare := by
  have hmarked (g : Graph) (id : SourceId) :
      g.bare.modifySource id markOutput = (g.modifySource id markOutput).bare := rfl
  have hadded (g : Graph) (id : SourceId) :
      (g.bare.addSource t id).2 = (g.addSource t id).2.bare := by
    have hstore := congrArg Prod.snd (Store.addSource_bare g.store t id)
    rw [addSource_eq, addSource_eq]
    simp only [bare, hstore]
  unfold registerSource
  rw [sourceFor_bare]
  simp only [hmarked, hadded]

/-- The effects of a plan without what is remembered. -/
def Effects.bare (e : Effects) : Effects :=
  { e with graph := e.graph.bare }

theorem groupFile_bare (e : Effects) (file : GeneratedFile) :
    groupFile e.bare file = ((groupFile e file).1.bare, (groupFile e file).2) := by
  have hsettings : e.bare.graph.settings = e.graph.settings := rfl
  unfold groupFile
  rw [hsettings]
  split
  · rfl
  · simp only
    split
    · rfl
    · split
      · rfl
      · rfl

theorem registerFiles_bare (t : TargetId) (e : Effects) (files : List GeneratedFile) :
    registerFiles t e.bare files =
      ((registerFiles t e files).1.bare, (registerFiles t e files).2) := by
  induction files generalizing e with
  | nil => rfl
  | cons file rest ih =>
    have hsource : ({ e.bare with graph := e.bare.graph.registerSource t file.path } : Effects) =
        Effects.bare { e with graph := e.graph.registerSource t file.path } := by
      simp only [Effects.bare, registerSource_bare]
    rw [registerFiles, registerFiles, hsource, groupFile_bare]
    rcases groupFile { e with graph := e.graph.registerSource t file.path } file
      with ⟨e', _ | fault⟩
    · exact ih e'
    · rfl

theorem withStep_bare (g : Graph) (t : TargetId) (p : Plan) :
    g.bare.withStep t p = (g.withStep t p).bare := by
  have hstep : g.bare.generationStep (g.bare.target t) p = g.generationStep (g.target t) p := by
    rw [target_bare]
    rfl
  have hstore : g.store.bare.modifyTarget t (·.addUtility p.autogenTargetName) =
      (g.store.modifyTarget t (·.addUtility p.autogenTargetName)).bare :=
    (Store.bare_modifyTarget_comm (f := (·.addUtility p.autogenTargetName))
      (fun _ => rfl) g.store t).symm
  unfold withStep
  rw [hstep]
  simp only [bare, modifyTarget, hstore]

theorem prepared_bare (g : Graph) (t : TargetId) (p : Plan) (ds : Diagnostics) :
    g.bare.prepared t p ds = (g.prepared t p ds).bare := by
  unfold prepared
  rw [target_bare]
  rfl

/-- What is remembered makes no difference to carrying out a plan. -/
theorem emit_bare [Environment] (g : Graph) (fs : FileSystem) (t : TargetId) (p : Plan)
    (ds : Diagnostics) :
    g.bare.emit fs t p ds = { g.emit fs t p ds with graph := (g.emit fs t p ds).graph.bare } := by
  have hfiles := registerFiles_bare t (g.prepared t p ds) p.generatedFiles
  rw [← prepared_bare] at hfiles
  rw [emit_eq, emit_eq, hfiles]
  rcases registerFiles t (g.prepared t p ds) p.generatedFiles with ⟨e, _ | fault⟩
  · have htaken :
        e.bare.graph.isTaken p.autogenTargetName = e.graph.isTaken p.autogenTargetName := rfl
    have hstep : e.bare.graph.withStep t p = (e.graph.withStep t p).bare :=
      withStep_bare e.graph t p
    have hsaid : e.bare.diagnostics = e.diagnostics := rfl
    simp only [htaken, hstep, hsaid]
    split_ifs
    · rfl
    · simp only
  · rfl

/-- Carrying out a plan in graphs that differ in what they remember. -/
theorem emit_of_bare [Environment] (h : g'.bare = g.bare) (fs : FileSystem)
    (t : TargetId) (p : Plan) (ds : Diagnostics) : let out := g.emit fs t p ds
    let out' := g'.emit fs t p ds
    out'.result = out.result ∧ out'.files = out.files ∧ out'.diagnostics = out.diagnostics ∧
      out'.graph.bare = out.graph.bare := by
  intro out out'
  have hbare := emit_bare g fs t p ds
  rw [← h, emit_bare g' fs t p ds, Emission.mk.injEq] at hbare
  exact ⟨hbare.2.2.2, hbare.2.2.1, hbare.2.1, hbare.1⟩

/-- What is said while files are registered is added to what was said before. -/
theorem registerFiles_continues (t : TargetId) (e : Effects) (files : List GeneratedFile) :
    e.diagnostics.Continues (registerFiles t e files).1.diagnostics := by
  induction files generalizing e with
  | nil => exact .refl _
  | cons file rest ih =>
    have hgroup : e.diagnostics.Continues
        (groupFile { e with graph := e.graph.registerSource t file.path } file).1.diagnostics := by
      unfold groupFile
      simp only
      split
      · exact .refl _
      · split
        · exact .refl _
        · split
          · exact .record e.diagnostics .error _
          · exact .refl _
    rw [registerFiles]
    generalize groupFile { e with graph := e.graph.registerSource t file.path } file =
      out at hgroup ⊢
    rcases out with ⟨e', _ | fault⟩
    · exact hgroup.trans (ih e')
    · exact hgroup

/-- What is said while a plan is carried out is added to what was said before. -/
theorem emit_continues [Environment] (g : Graph) (fs : FileSystem) (t : TargetId) (p : Plan)
    (ds : Diagnostics) :
    ds.Continues (g.emit fs t p ds).diagnostics := by
  have hfiles : ds.Continues (registerFiles t (g.prepared t p ds) p.generatedFiles).1.diagnostics :=
    registerFiles_continues t (g.prepared t p ds) p.generatedFiles
  rw [emit_eq]
  generalize registerFiles t (g.prepared t p ds) p.generatedFiles = out at hfiles ⊢
  rcases out with ⟨e, _ | fault⟩
  · simp only
    split_ifs
    · exact hfiles
    · exact hfiles
  · exact hfiles

/-! ## What making a plan changes -/

/-- What making a plan changes: the target knows its directory of generated headers, which is put in
front of its include directories unless it is among them; resource files call for a new
configuration; and lists are remembered. -/
structure NotesOnly [Environment] (t : TargetId) (g g' : Graph) : Prop where
  graph : ∃ files, g' = { g with
    store := g'.store, reconfigureFiles := g.reconfigureFiles.insertAll files }
  sources : g'.store.sources = g.store.sources
  length_targets : g'.store.targets.length = g.store.targets.length
  others : ∀ u, u ≠ t → (g'.target u).bare = (g.target u).bare
  target : (g'.target t).bare =
    { (g.target t).bare with includeDirectories := (g'.target t).includeDirectories }
  directories : (g'.target t).includeDirectories =
    match (g.target t).includeDir? g.settings with
    | none => (g.target t).includeDirectories
    | some dir =>
      if dir ∈ (g.target t).includeDirectories then (g.target t).includeDirectories
      else dir :: (g.target t).includeDirectories

theorem includeDir?_ne_empty [Environment] {x : Target} {settings : ProjectSettings} {dir : String}
    (h : x.includeDir? settings = some dir) : dir ≠ "" := by
  unfold Target.includeDir? at h
  split at h
  · obtain rfl := Option.some.inj h
    intro hempty
    simpa using congrArg String.length hempty
  · cases h

theorem includeDirectories_withIncludeDir [Environment] (x : Target) (settings : ProjectSettings) :
    (x.withIncludeDir (x.includeDir? settings)).includeDirectories =
      match x.includeDir? settings with
      | none => x.includeDirectories
      | some dir =>
        if dir ∈ x.includeDirectories then x.includeDirectories
          else dir :: x.includeDirectories := by
  unfold Target.withIncludeDir
  cases h : x.includeDir? settings with
  | none => rfl
  | some dir =>
    have hgiven : given? (some dir) = some dir := given?_eq_some.mpr ⟨rfl, includeDir?_ne_empty h⟩
    simp only [hgiven, Target.addIncludeDirectory]
    split <;> rfl

/-- Making a plan of a target for which a generator is enabled changes little, also when it
fails. -/
theorem plan_notesOnly [Environment] (hg : g.WellFormed) (hfresh : g.Fresh) (fs : FileSystem)
    (lister : ResourceLister) (henabled : (g.target t).properties.anyGeneratorEnabled = true) :
    g.NotesOnly t (g.plan fs lister t).graph := by
  have hincluded : g.Grows {t} ∅ (g.included t) := included_grows g t
  have hplan := plan_of_enabled fs lister henabled
  obtain ⟨files, store, hgraph, hbare, -, -⟩ :=
    planRegistered_graph (hg.grows hincluded) (fresh_included hg hfresh) fs lister t
      { target := some (g.target t).name }
  rw [hplan, hgraph]
  obtain ⟨hsources, hlen, htarget⟩ := Store.bare_eq_iff.mp hbare
  -- A generator is enabled, so the number stands for a target.
  have ht : t < g.store.targets.length := by
    by_contra hle
    rw [target, Store.target_of_le (Nat.le_of_not_lt hle)] at henabled
    exact absurd henabled Bool.false_ne_true
  have hknown : (g.included t).target t =
      (g.target t).withIncludeDir ((g.target t).includeDir? g.settings) := by
    rw [target_included, if_pos ht]
  have hdirectories :
      (store.target t).includeDirectories = ((g.included t).target t).includeDirectories :=
    (congrArg Target.includeDirectories (htarget t) : _)
  refine ⟨⟨files, rfl⟩, hsources, hlen.trans hincluded.store.length_targets, fun u hu => ?_, ?_, ?_⟩
  · exact (htarget u).trans (hincluded.store.unplanned u hu)
  · obtain ⟨dirs, hdirs⟩ := withIncludeDir_eq (g.target t) ((g.target t).includeDir? g.settings)
    rw [target, hdirectories, htarget t]
    change ((g.included t).target t).bare = _
    rw [hknown, hdirs]
    rfl
  · rw [target, hdirectories, hknown]
    exact includeDirectories_withIncludeDir (g.target t) g.settings

/-! ## Planning again -/

/-- Resource files are added alike for whatever target. -/
theorem addResources_of_target [Environment] (r : DependencyRequest) (x : Target) (fs : FileSystem)
    (tally : DependencyTally) (resources : List Resource) :
    ({ r with target := x } : DependencyRequest).addResources fs tally resources =
      r.addResources fs tally resources := by
  induction resources generalizing tally with
  | nil => rfl
  | cons resource rest ih =>
    have hfirst : ({ r with target := x } : DependencyRequest).addResource fs tally resource =
        r.addResource fs tally resource := rfl
    rw [DependencyRequest.addResources, DependencyRequest.addResources, hfirst]
    rcases r.addResource fs tally resource with ⟨tally', _ | fault⟩
    · exact ih tally'
    · rfl

/-- What a target remembers makes no difference to collecting its dependencies. -/
theorem collect_of_cache [Environment] (x : Target) (cache : Option (List SourceId))
    (g : Graph) (fs : FileSystem) (binding : Option ToolBinding) (lister : ResourceLister)
    (c : Classification) :
    (({ x with sourceCache := cache } : Target).dependencyRequest binding lister).collect g fs c =
      (x.dependencyRequest binding lister).collect g fs c := by
  have hbefore :
      (({ x with sourceCache := cache } : Target).dependencyRequest binding lister).before g fs c =
      (x.dependencyRequest binding lister).before g fs c := rfl
  unfold DependencyRequest.collect
  rw [hbefore]
  cases (x.dependencyRequest binding lister).before g fs c with
  | error fault => rfl
  | ok depends =>
    exact addResources_of_target (x.dependencyRequest binding lister)
      { x with sourceCache := cache } fs _ _

theorem concluded_face [Environment] {x x' : Target} (hsettings : g'.settings = g.settings)
    (hx : x'.face = x.face) (f : Findings) (collected : DependencyTally × Option PathFault) :
    g'.concluded x' f collected = g.concluded x f collected := by
  unfold concluded
  rw [checksumRoots_face hsettings hx, assemble_face hsettings hx]

/-- What is remembered and what calls for a new configuration makes no difference to making a
plan. -/
theorem planRegistered_of_bare [Environment] (hg : g.WellFormed) (hfresh : g.Fresh) {store : Store}
    (hbare : store.bare = g.store.bare) (hstore : store.Fresh) (files : OrderedSet String)
    (fs : FileSystem) (lister : ResourceLister) (t : TargetId) (ds : Diagnostics) :
    let out := g.planRegistered fs lister t ds
    let out' := ({ g with store, reconfigureFiles := files } : Graph).planRegistered fs lister t ds
    out'.result = out.result ∧ out'.diagnostics = out.diagnostics := by
  intro out out'
  set g' : Graph := { g with store, reconfigureFiles := files } with hdef
  have hgrows : g.Grows ∅ ∅ g' :=
    ⟨.of_bare hbare, rfl, rfl, rfl, fun _ _ => .inl, fun _ _ => id, fun _ => id, fun _ => .inl⟩
  obtain ⟨store₁, hplanned, hbare₁, -⟩ := plannedSources_eq hg hfresh t
  obtain ⟨store₂, hplanned', hbare₂, -⟩ := plannedSources_eq (hg.grows hgrows) hstore t
  obtain ⟨cache, hcache⟩ := eq_of_bare ((Store.bare_eq_iff.mp hbare).2.2 t)
  -- What is remembered is fresh, so both graphs plan the target from the same things.
  have halike : Alike t g g' := by
    have hself : Alike t g g := ⟨rfl, rfl, rfl, fun _ => rfl, rfl, rfl, fun _ => id⟩
    have hsame := hself.of_bare rfl hbare
    exact ⟨rfl, rfl, rfl, hsame.properties, hsame.face, hsame.inputs, fun _ => id⟩
  have hafter : ({ g' with store := store₂ } : Graph).examine fs (g'.target t)
      (g'.store.ownSources t) ds =
      ({ g with store := store₁ } : Graph).examine fs (g.target t) (g.store.ownSources t) ds := by
    have hown : g'.store.ownSources t = g.store.ownSources t := Store.ownSources_of_bare hbare t
    rw [examine_alike (halike.of_bare hbare₁ hbare₂), examine_face halike.face, hown]
  rcases hexamine : ({ g with store := store₁ } : Graph).examine fs (g.target t)
    (g.store.ownSources t) ds
    with ⟨noted, fault | f⟩
  · obtain ⟨hnoted, hresult⟩ := planRegistered_of_fault lister hplanned hexamine
    obtain ⟨hnoted', hresult'⟩ := planRegistered_of_fault lister hplanned' (hafter.trans hexamine)
    exact ⟨hresult'.trans hresult.symm, hnoted'.trans hnoted.symm⟩
  · obtain ⟨hnoted, hresult, -⟩ := planRegistered_of_findings lister hplanned hexamine
    obtain ⟨hnoted', hresult', -⟩ :=
      planRegistered_of_findings lister hplanned' (hafter.trans hexamine)
    have hcollect :
        ((g'.target t).dependencyRequest f.rccBinding lister).collect g' fs f.classification =
        ((g.target t).dependencyRequest f.rccBinding lister).collect g fs f.classification := by
      have htarget : g'.target t = { g.target t with sourceCache := cache } := hcache
      rw [htarget, collect_of_cache]
      rfl
    rw [hcollect] at hnoted' hresult'
    refine ⟨?_, hnoted'.trans hnoted.symm⟩
    rw [hresult, hresult']
    exact concluded_face halike.settings halike.face f _

/-- A target that was planned knows its directory of generated headers. -/
theorem included_of_plan [Environment] (hg : g.WellFormed) (hfresh : g.Fresh)
    (h : (g.plan fs lister t).result = .ok p) :
    (g.plan fs lister t).graph.included t = (g.plan fs lister t).graph := by
  have hgrows := plan_grows hg hfresh fs lister t
  obtain ⟨ht, -⟩ := plan_eq_ok h
  obtain ⟨cache, hcache⟩ := target_of_plan h
  have hknown := target_included g t
  rw [if_pos ht] at hknown
  have hdirectories : ((g.plan fs lister t).graph.store.target t).includeDirectories =
      ((g.included t).target t).includeDirectories := (congrArg Target.includeDirectories hcache :)
  rw [hknown] at hdirectories
  have hsame := withIncludeDir_again hdirectories
  rw [included, includeDir?_grows hgrows, modifyTarget, Store.modifyTarget_self hsame]

/-- The resource files of a plan that was made call for a new configuration. -/
theorem watched_of_plan [Environment] (hg : g.WellFormed) (hfresh : g.Fresh)
    (h : (g.plan fs lister t).result = .ok p) :
    ∀ resource ∈ p.classification.resources, resource.generated = false →
      resource.path ∈ (g.plan fs lister t).graph.reconfigureFiles.toList := by
  have hincluded : g.Grows {t} ∅ (g.included t) := included_grows g t
  have hplan := plan_of_enabled fs lister (enabled_of_plan h)
  rw [hplan] at h ⊢
  rw [reconfigureFiles_of_plan (hg.grows hincluded) (fresh_included hg hfresh) h]
  intro resource hresource hown
  refine OrderedSet.mem_insertAll.mpr (.inr (OrderedSet.mem_ofList.mpr ?_))
  exact List.mem_map_of_mem (List.mem_filter.mpr ⟨hresource, by simp [hown]⟩)

/-- A plan that is made leaves the list of its target merged and forgotten. -/
theorem store_of_plan [Environment] (h : (g.plan fs lister t).result = .ok p) :
    (g.plan fs lister t).graph.store = ((g.included t).store.commonSources t).2.clearSources t := by
  have hplan := plan_of_enabled fs lister (enabled_of_plan h)
  rw [hplan] at h ⊢
  rcases store_of_planRegistered (g.included t) fs lister t { target := some (g.target t).name }
    with
    ⟨-, hfails⟩ | heq
  · exact absurd h (hfails p)
  · exact heq

/-- The plan of a target that has just been planned is the same, and making it again changes at most
what is remembered: nothing, if what is below a remembered list is remembered. -/
theorem plan_again [Environment] (hg : g.WellFormed) (hfresh : g.Fresh)
    (h : (g.plan fs lister t).result = .ok p) :
    let planned := (g.plan fs lister t).graph
    (planned.plan fs lister t).result = .ok p ∧
      (planned.plan fs lister t).diagnostics = (g.plan fs lister t).diagnostics ∧
      (planned.plan fs lister t).graph.bare = planned.bare ∧
      (g.store.RemembersBelow → (planned.plan fs lister t).graph = planned) := by
  intro planned
  have hincluded : g.Grows {t} ∅ (g.included t) := included_grows g t
  have henabled := enabled_of_plan h
  have hplan := plan_of_enabled fs lister henabled
  have hg₁ := hg.grows hincluded
  have hfresh₁ := fresh_included (t := t) hg hfresh
  obtain ⟨hgrows, hfresh', -⟩ := plan_graph hg hfresh fs lister t
  have hnoted : planned.included t = planned := included_of_plan hg hfresh h
  have hname : (planned.target t).name = (g.target t).name := hgrows.part (·.name) (fun _ => rfl) t
  have hproperties : (planned.target t).properties = (g.target t).properties :=
    hgrows.part (·.properties) (fun _ => rfl) t
  have hagain := plan_of_enabled fs lister (hproperties ▸ henabled)
  rw [hnoted, hname] at hagain
  obtain ⟨files, store, hgraph, hbare, hstore, -⟩ :=
    planRegistered_graph hg₁ hfresh₁ fs lister t { target := some (g.target t).name }
  obtain ⟨hresult, hsaid⟩ := planRegistered_of_bare hg₁ hfresh₁ hbare hstore
    ((g.included t).reconfigureFiles.insertAll files)
      fs lister t { target := some (g.target t).name }
  rw [← hgraph, ← hplan, ← hagain] at hresult hsaid
  have hsame : (planned.plan fs lister t).result = .ok p := hresult.trans h
  obtain ⟨store', hgraph', hbare'⟩ :=
    graph_of_plan (hg.grows hgrows) hfresh' hnoted hsame (watched_of_plan hg hfresh h)
  refine ⟨hsame, hsaid, ?_, ?_⟩
  · rw [hgraph', bare, bare, hbare']
  · intro hbelow
    -- Both times the list of the target is merged and forgotten, and the second time that is in
    -- vain.
    have hsecond := store_of_plan hsame
    rw [hnoted, hgraph', show planned.store = _ from store_of_plan h] at hsecond
    have hkept : store' = planned.store := by
      rw [show planned.store = _ from store_of_plan h]
      exact hsecond.trans (Store.clearSources_again hg₁.linked (remembersBelow_included hbelow t) t)
    rw [hgraph', hkept]

/-! ## Running after planning -/

/-- A run for which a plan can be made carries it out. -/
theorem run_eq_of_plan [Environment] (h : (g.plan fs lister t).result = .ok p) : g.run fs lister t =
    (let done := (g.plan fs lister t).graph.emit fs t p (g.plan fs lister t).diagnostics
     ⟨done.graph, done.files, done.result.map fun path => ⟨p, path, done.diagnostics⟩⟩) := by
  rcases run_graph g fs lister t with ⟨fault, hfault, -⟩ | ⟨q, hq, heq⟩
  · rw [h] at hfault
    cases hfault
  · obtain rfl := Except.ok.inj (h.symm.trans hq)
    exact heq

/-- A run of a target that has just been planned ends as a run without the plan does, up to what is
remembered; there is no difference at all if what is below a remembered list is remembered. -/
theorem run_again_of_plan [Environment] (hg : g.WellFormed) (hfresh : g.Fresh)
    (h : (g.plan fs lister t).result = .ok p) :
    let alone := g.run fs lister t
    let later := (g.plan fs lister t).graph.run fs lister t
    later.result = alone.result ∧ later.files = alone.files ∧ later.graph.bare = alone.graph.bare ∧
      (g.store.RemembersBelow → later = alone) := by
  intro alone later
  obtain ⟨hresult, hsaid, hbare, hsame⟩ := plan_again hg hfresh h
  obtain ⟨hdone, hfiles, hdiagnostics, hgraph⟩ :=
    emit_of_bare hbare fs t p (g.plan fs lister t).diagnostics
  have halone := run_eq_of_plan h
  have hlater := run_eq_of_plan hresult
  rw [hsaid] at hlater
  refine ⟨?_, ?_, ?_, fun hbelow => ?_⟩
  · simp only [alone, later, halone, hlater, hdone, hdiagnostics]
  · simp only [alone, later, halone, hlater, hfiles]
  · simp only [alone, later, halone, hlater, hgraph]
  · simp only [alone, later, halone, hlater, hsame hbelow]

/-- Making a plan before a run makes no difference to the run. Making it changes the include
directories of the target, what calls for a new configuration and what is remembered; the run then
ends as it does without the plan, with the same plan, tree of files and graph, and it says first
what was said when the plan was made. The graphs may differ in what they remember only if the
library of a target that remembered its list did not, which no call brings about. -/
theorem run_of_planned [Environment] (hg : g.WellFormed) (hfresh : g.Fresh)
    (h : (g.plan fs lister t).result = .ok p) :
    let planned := (g.plan fs lister t).graph
    let alone := g.run fs lister t
    let later := planned.run fs lister t
    g.NotesOnly t planned ∧
      later.result = alone.result ∧ later.files = alone.files ∧
      later.graph.bare = alone.graph.bare ∧
      (g.store.RemembersBelow → later.graph = alone.graph) ∧
      ∀ r, alone.result = .ok r →
        r.plan = p ∧ (g.plan fs lister t).diagnostics.items <+: r.diagnostics.items := by
  intro planned alone later
  obtain ⟨hresult, hfiles, hgraph, hsame⟩ := run_again_of_plan hg hfresh h
  refine ⟨plan_notesOnly hg hfresh fs lister (enabled_of_plan h), hresult, hfiles, hgraph, ?_, ?_⟩
  · exact fun hbelow => congrArg RunOutcome.graph (hsame hbelow)
  · intro r hr
    obtain ⟨hplan, -, heq⟩ := run_emits hr
    obtain rfl := Except.ok.inj (h.symm.trans hplan)
    have hfirst := emit_continues planned fs t r.plan (g.plan fs lister t).diagnostics
    have hr' := hr.symm.trans (congrArg RunOutcome.result heq)
    rw [Except.ok.inj hr']
    exact ⟨rfl, hfirst.items⟩

/-- Whatever was called on a graph that remembered nothing, a run is the same with its plan made
before it as without. -/
theorem run_again_of_calls [Environment] (hg : g.WellFormed)
    (hnone : ∀ u, (g.target u).sourceCache = none) (hcalls : Relation.ReflTransGen Call g g')
    (h : (g'.plan fs lister t).result = .ok p) :
    (g'.plan fs lister t).graph.run fs lister t = g'.run fs lister t := by
  have hcoherent := hg.coherent hnone
  have hbelow := hcoherent.remembersBelow_calls (Store.remembersBelow_of_none hnone) hcalls
  have hcoherent' := hcoherent.calls hcalls
  obtain ⟨-, -, -, hsame⟩ := run_again_of_plan hcoherent'.wellFormed hcoherent'.fresh h
  exact hsame hbelow

attribute [local instance] Environment.plain

/-- The application is planned before it is run, and by then nothing is remembered. -/
theorem run_of_planned_appProject :
    appProject.store.RemembersBelow ∧
    ∃ p r, (appProject.plan (describedTree 0o644) declaredInputs 0).result = .ok p ∧
      (appProject.run (describedTree 0o644) declaredInputs 0).result = .ok r ∧ r.plan = p ∧
      (appProject.plan (describedTree 0o644) declaredInputs 0).graph.run (describedTree 0o644)
        declaredInputs 0 = appProject.run (describedTree 0o644) declaredInputs 0 := by
  obtain ⟨r, hr, -, -⟩ := run_appProject (show 0o644 ∈ [0o200, 0o644] by decide)
  have hplan := (run_emits hr).1
  have hnone : appProject.store.RemembersBelow :=
    Store.remembersBelow_of_none fun t => by
      match t with
      | 0 => rfl
      | t + 1 => rfl
  obtain ⟨-, hresult, hfiles, -, hgraph, -⟩ :=
    run_of_planned wellFormed_appProject fresh_appProject hplan
  refine ⟨hnone, r.plan, r, hplan, hr, rfl, ?_⟩
  have hparts (x y : RunOutcome) (hg : x.graph = y.graph) (hf : x.files = y.files)
      (hr : x.result = y.result) : x = y := by
    cases x
    cases y
    simp_all
  exact hparts _ _ (hgraph hnone) hfiles hresult

end Graph

end Autogen
