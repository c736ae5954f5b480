import Autogen.Proofs.Graph.Growth

/-!
# What planning does to a graph

The graphs that making a plan and carrying it out leave behind, also when they fail on the way.

## Main definitions

* `Graph.included` — the graph in which a target knows its directory of generated headers.
* `Graph.Registered` — an output that is known as a source of its target.

## Main statements

* `plannedSources_eq` — from fresh lists, the sources that are planned are the target's own.
* `findings_of_examine`, `findings_of_plan` — what is found out about a target whose sources are
  examined, and from what its plan is put together.
* `planRegistered_graph` — making a plan changes what is remembered and what calls for a new
  configuration.
* `run_grows` — a run makes the graph grow by the outputs of the plan.
* `registerFiles_spec`, `emit_spec` — every output of a plan that is carried out is registered.
-/

namespace Autogen

/-- The paths of the files that a plan generates. -/
def Plan.outputs (p : Plan) : Set String :=
  {path | path ∈ p.generatedFiles.map (·.path)}

instance decidableMemOutputs (p : Plan) (path : String) : Decidable (path ∈ p.outputs) :=
  inferInstanceAs (Decidable (path ∈ p.generatedFiles.map (·.path)))

namespace Graph

variable {g g' : Graph} {t : TargetId} {fs : FileSystem} {lister : ResourceLister}
  {planned : Set TargetId} {outputs : Set String}

/-! ## Making a plan -/

/-- The graph in which a target knows its directory of generated headers. -/
def included [Environment] (g : Graph) (t : TargetId) : Graph :=
  g.modifyTarget t (·.withIncludeDir ((g.target t).includeDir? g.settings))

/-- A target is planned where it knows its directory of generated headers. -/
theorem plan_eq [Environment] (g : Graph) (fs : FileSystem) (lister : ResourceLister)
    (t : TargetId) :
    g.plan fs lister t =
      if (g.target t).properties.anyGeneratorEnabled then
        (g.included t).planRegistered fs lister t { target := some (g.target t).name }
      else ⟨g, { target := some (g.target t).name }, .error (.noGenerators (g.target t).name)⟩ :=
  rfl

/-- A directory of generated headers is noted among the include directories alone. -/
theorem withIncludeDir_eq (x : Target) (directory : Option String) :
    ∃ dirs, x.withIncludeDir directory = { x with includeDirectories := dirs } := by
  unfold Target.withIncludeDir Target.addIncludeDirectory
  split
  · split
    · exact ⟨_, rfl⟩
    · exact ⟨_, rfl⟩
  · exact ⟨_, rfl⟩

theorem part_withIncludeDir {α : Type} (part : Target → α)
    (hpart : ∀ x dirs, part { x with includeDirectories := dirs } = part x) (x : Target)
    (directory : Option String) : part (x.withIncludeDir directory) = part x := by
  obtain ⟨dirs, heq⟩ := withIncludeDir_eq x directory
  rw [heq, hpart]

theorem included_grows [Environment] (g : Graph) (t : TargetId) :
    g.Grows {t} outputs (g.included t) :=
  .of_store (Store.grows_modifyTarget (Set.mem_singleton t)
    (fun x => part_withIncludeDir Target.frame (fun _ _ => rfl) x _)
    fun x => part_withIncludeDir Target.sources (fun _ _ => rfl) x _)

theorem part_included [Environment] {α : Type} (part : Target → α)
    (hpart : ∀ x dirs, part { x with includeDirectories := dirs } = part x) (u : TargetId) :
    part ((g.included t).target u) = part (g.target u) :=
  Store.part_modifyTarget part (fun x => part_withIncludeDir part hpart x _) g.store t u

theorem fresh_included [Environment] (hg : g.WellFormed) (hfresh : g.Fresh) :
    (g.included t).Fresh := by
  have hgrows : g.Grows {t} ∅ (g.included t) := included_grows g t
  refine (Store.fresh_iff (hg.grows hgrows).linked).mpr ?_
  refine Store.RemembersMerged.congr hg.linked ((Store.fresh_iff hg.linked).mp hfresh)
    hgrows.store.length_targets (fun id hid => hgrows.store.path hid) fun u ids hids => ⟨?_, ?_⟩
  · exact (part_included Target.sourceCache (fun _ _ => rfl) u).symm.trans hids
  · exact fun v _ => ⟨part_included Target.sources (fun _ _ => rfl) v,
      part_included Target.objectLibraries (fun _ _ => rfl) v⟩

/-- From fresh lists, the sources that are planned are the target's own. -/
theorem plannedSources_eq (hg : g.WellFormed) (hfresh : g.Fresh) (t : TargetId) :
    ∃ store : Store, g.plannedSources t = (g.store.ownSources t, { g with store }) ∧
      store.bare = g.store.bare ∧ store.Fresh := by
  obtain ⟨hids, hbare, hfresh'⟩ := Store.commonSources_spec hg.linked hfresh t
  have hsource := Store.source_of_bare hbare
  have hpath := Store.path_of_bare hbare
  refine ⟨(g.store.commonSources t).2, ?_, hbare, hfresh'⟩
  unfold plannedSources commonSources
  generalize g.store.commonSources t = out at *
  obtain ⟨ids, store⟩ := out
  subst hids
  obtain ⟨added, heq, hadded⟩ := Store.merged_eq_append hg.linked t
  have hown : (g.store.merged t).filter (fun id =>
      decide (store.path id ∈ (g.target t).sources.map g.store.path)) = (g.target t).sources := by
    rw [heq, hpath, List.filter_append, List.filter_eq_self.mpr, List.filter_eq_nil_iff.mpr]
    · exact List.append_nil _
    · intro id hid hmem
      exact hadded id hid (of_decide_eq_true hmem)
    · intro id hid
      exact decide_eq_true (List.mem_map_of_mem hid)
  simp only [hown, hsource]
  rfl

theorem collectDependencies_graph [Environment] (g : Graph) (fs : FileSystem)
    (r : DependencyRequest) (c : Classification) (ds : Diagnostics) :
    ∃ files, (g.collectDependencies fs r c ds).graph = g.addReconfigureFiles files :=
  ⟨_, rfl⟩

/-- Making a plan changes what is remembered and what calls for a new configuration. When it
succeeds, nothing is remembered about the target and about what is compiled from it. -/
theorem planRegistered_graph [Environment] (hg : g.WellFormed) (hfresh : g.Fresh) (fs : FileSystem)
    (lister : ResourceLister) (t : TargetId) (ds : Diagnostics) :
    ∃ files, ∃ store : Store, (g.planRegistered fs lister t ds).graph =
        { g with store, reconfigureFiles := g.reconfigureFiles.insertAll files } ∧
      store.bare = g.store.bare ∧ store.Fresh ∧
        ∀ p, (g.planRegistered fs lister t ds).result = .ok p → store.Forgotten t := by
  obtain ⟨store, hplanned, hbare, hstore⟩ := plannedSources_eq hg hfresh t
  have hlinked : store.Linked := hg.linked.of_bare hbare
  unfold planRegistered
  simp only [hplanned]
  split
  · exact ⟨[], store, rfl, hbare, hstore, fun p hp => by cases hp⟩
  · rename_i ds findings _
    obtain ⟨files, hfiles⟩ := collectDependencies_graph { g with store } fs
      ((g.target t).dependencyRequest findings.rccBinding lister) findings.classification ds
    rw [hfiles]
    have hcleared : (store.clearSources t).bare = g.store.bare :=
      (Store.bare_clearSources store t).trans hbare
    have hfresh' : (store.clearSources t).Fresh :=
      (Store.fresh_iff (hlinked.forget _)).mpr
        (((Store.fresh_iff hlinked).mp hstore).forget hlinked _)
    split
    · exact ⟨files, store, rfl, hbare, hstore, fun p hp => by cases hp⟩
    · split
      · exact ⟨files, store.clearSources t, rfl, hcleared, hfresh', fun p hp => by cases hp⟩
      · exact ⟨files, store.clearSources t, rfl, hcleared, hfresh', fun p _ =>
          Store.forgotten_clearSources hlinked t⟩

theorem grows_addReconfigureFiles (g : Graph) (files : List String) :
    g.Grows planned outputs (g.addReconfigureFiles files) :=
  ⟨.refl g.store, rfl, rfl, rfl, fun _ _ => .inl, fun _ _ => id, fun _ => id, fun _ => .inl⟩

/-- Making a plan leaves the targets as it found them once they know their directories of generated
headers, but for what is remembered. -/
theorem bare_planRegistered [Environment] (g : Graph) (fs : FileSystem) (lister : ResourceLister)
    (t : TargetId) (ds : Diagnostics) :
    (g.planRegistered fs lister t ds).graph.store.bare = g.store.bare := by
  have hplanned : (g.plannedSources t).2.store.bare = g.store.bare :=
    Store.bare_commonSources g.store t
  unfold planRegistered
  simp only
  split
  · exact hplanned
  · split
    · exact hplanned
    · split
      · exact (Store.bare_clearSources _ t).trans hplanned
      · exact (Store.bare_clearSources _ t).trans hplanned

/-- Making a plan leaves alone what is not in the store, but for what calls for a new
configuration. -/
theorem frame_plan [Environment] (g : Graph) (fs : FileSystem) (lister : ResourceLister)
    (t : TargetId) :
    ∃ store files, (g.plan fs lister t).graph = { g with store, reconfigureFiles := files } := by
  have hregistered (g : Graph) (ds : Diagnostics) : ∃ store files,
      (g.planRegistered fs lister t ds).graph = { g with store, reconfigureFiles := files } := by
    unfold planRegistered
    simp only
    split
    · exact ⟨_, _, rfl⟩
    · split
      · exact ⟨_, _, rfl⟩
      · split <;> exact ⟨_, _, rfl⟩
  rw [plan_eq]
  split
  · obtain ⟨store, files, heq⟩ := hregistered (g.included t) { target := some (g.target t).name }
    exact ⟨store, files, heq⟩
  · exact ⟨g.store, g.reconfigureFiles, rfl⟩

/-- Making a plan is growth without outputs, and the lists stay fresh. When it succeeds, nothing is
remembered about the target and about what is compiled from it. -/
theorem plan_graph [Environment] (hg : g.WellFormed) (hfresh : g.Fresh) (fs : FileSystem)
    (lister : ResourceLister) (t : TargetId) :
    g.Grows {t} ∅ (g.plan fs lister t).graph ∧ (g.plan fs lister t).graph.Fresh ∧
      ∀ p, (g.plan fs lister t).result = .ok p → (g.plan fs lister t).graph.store.Forgotten t := by
  rw [plan_eq]
  split
  · have hincluded : g.Grows {t} ∅ (g.included t) := included_grows g t
    obtain ⟨files, store, hgraph, hbare, hstore, hforgotten⟩ :=
      planRegistered_graph (hg.grows hincluded) (fresh_included hg hfresh) fs lister t
        { target := some (g.target t).name }
    have hgrows : (g.included t).Grows {t} ∅
        { g.included t with store, reconfigureFiles :=
          (g.included t).reconfigureFiles.insertAll files } :=
      (Grows.of_store (.of_bare hbare)).trans (grows_addReconfigureFiles _ files)
    rw [hgraph]
    exact ⟨hincluded.trans hgrows, hstore, hforgotten⟩
  · exact ⟨.refl g, hfresh, fun p hp => by cases hp⟩

theorem plan_grows [Environment] (hg : g.WellFormed) (hfresh : g.Fresh) (fs : FileSystem)
    (lister : ResourceLister) (t : TargetId) : g.Grows {t} ∅ (g.plan fs lister t).graph :=
  (plan_graph hg hfresh fs lister t).1

/-! ## Carrying out a plan -/

/-- An entry with a path is what the index is to know for the path. -/
theorem grows_index {path : String} {id : SourceId} (hnone : g.sourceIndex.get? path = none)
    (hid : id < g.store.sources.length) (hpath : g.store.path id = path) :
    g.Grows planned outputs { g with sourceIndex := g.sourceIndex.insert path id } := by
  refine ⟨.refl g.store, rfl, rfl, rfl, fun other old hold => ?_, fun other old hold => ?_,
    fun _ h => h, fun _ => .inl⟩
  · rw [OrderedMap.get?_insert] at hold
    split at hold
    · rename_i heq
      cases hold
      exact .inr ⟨hid, hpath.trans heq.symm⟩
    · exact .inl hold
  · rw [OrderedMap.get?_insert, if_neg]
    · exact hold
    · rintro rfl
      rw [hnone] at hold
      cases hold

theorem declaredSource?_spec (hg : g.WellFormed) {path : String} {id : SourceId}
    (h : g.declaredSource? path = some id) :
    id < g.store.sources.length ∧ g.store.path id = path := by
  obtain ⟨u, -, hfind⟩ := List.exists_of_findSome?_eq_some h
  refine ⟨hg.linked.source_lt u id (List.mem_of_find?_eq_some hfind), ?_⟩
  simpa using List.find?_some hfind

/-- What the look-up of the entry for a path leaves: the index knows the entry, and the entry has
the path. The targets stay. -/
structure Stands (g : Graph) (path : String) (id : SourceId) (g' : Graph) : Prop where
  grows : g.Grows ∅ ∅ g'
  lt : id < g'.store.sources.length
  path_eq : g'.store.path id = path
  indexed : g'.sourceIndex.get? path = some id
  targets : g'.store.targets = g.store.targets

theorem sourceFor_spec (hg : g.WellFormed) (path : String) :
    g.Stands path (g.sourceFor path).1 (g.sourceFor path).2 := by
  unfold sourceFor
  split
  · rename_i id hid
    obtain ⟨hlt, hpath⟩ := hg.index path id hid
    exact ⟨.refl g, hlt, hpath, hid, rfl⟩
  · rename_i hnone
    split
    · rename_i id hid
      obtain ⟨hlt, hpath⟩ := declaredSource?_spec hg hid
      refine ⟨grows_index hnone hlt hpath, hlt, hpath, ?_, rfl⟩
      rw [OrderedMap.get?_insert, if_pos rfl]
    · have hlt : g.store.sources.length < (g.newSource { path }).2.store.sources.length := by
        simp [newSource, Store.newSource]
      have hpath : (g.newSource { path }).2.store.path g.store.sources.length = path := by
        simp [newSource, Store.newSource, Store.path, Store.source, List.getD_eq_getElem?_getD]
      have hgrows : g.Grows ∅ ∅ (g.newSource { path }).2 :=
        .of_store (Store.grows_newSource _)
      refine ⟨hgrows.trans (grows_index hnone hlt hpath), hlt, hpath, ?_, rfl⟩
      exact (OrderedMap.get?_insert _ _ _ _).trans (if_pos rfl)

/-- An output that is known as a source of its target: the entry that stands for it is marked, and
the target has an entry with its path. -/
def Registered (g : Graph) (t : TargetId) (path : String) : Prop :=
  ∃ id, g.sourceIndex.get? path = some id ∧ markOutput (g.store.source id) = g.store.source id ∧
    path ∈ g.store.paths (g.target t).sources

theorem mem_paths_grows (hg : g.WellFormed) (h : g.Grows planned outputs g') {path : String}
    (hpath : path ∈ g.store.paths (g.target t).sources) :
    path ∈ g'.store.paths (g'.target t).sources := by
  obtain ⟨id, hid, rfl⟩ := List.mem_map.mp hpath
  obtain ⟨added, heq, -⟩ := h.store.sources t
  rw [target, heq]
  exact List.mem_map.mpr ⟨id, List.mem_append_left _ hid,
    h.store.path (hg.linked.source_lt t id hid)⟩

theorem Registered.grows (hg : g.WellFormed) (h : g.Grows planned outputs g') {path : String}
    (hregistered : g.Registered t path) : g'.Registered t path := by
  obtain ⟨id, hindex, hmark, hpath⟩ := hregistered
  refine ⟨id, h.indexed path id hindex, ?_, mem_paths_grows hg h hpath⟩
  rcases h.store.source id (hg.index path id hindex).1 with heq | ⟨-, heq⟩
  · rw [heq, hmark]
  · rw [heq, hmark, hmark]

theorem addSource_eq (g : Graph) (t : TargetId) (id : SourceId) :
    (g.addSource t id).2 = { g with store := (g.store.addSource t id).2 } := rfl

/-- Registering a file leaves alone what is not in the store, but for the index. -/
theorem frame_registerSource (g : Graph) (t : TargetId) (path : String) :
    ∃ store, g.registerSource t path =
      { g with store, sourceIndex := (g.sourceFor path).2.sourceIndex } := by
  have hfor : ∃ store, (g.sourceFor path).2 =
      { g with store, sourceIndex := (g.sourceFor path).2.sourceIndex } := by
    unfold sourceFor
    split
    · exact ⟨_, rfl⟩
    · split <;> exact ⟨_, rfl⟩
  obtain ⟨store, heq⟩ := hfor
  have hlast : g.registerSource t path =
      { (g.sourceFor path).2 with store := (g.registerSource t path).store } := rfl
  exact ⟨(g.registerSource t path).store,
    hlast.trans
      (congrArg (fun found : Graph => { found with store := (g.registerSource t path).store }) heq)⟩

/-- What registering a file leaves: the file is known as a source of its target, and the targets
change in their sources alone. -/
theorem registerSource_spec (hg : g.WellFormed) (t : TargetId) (path : String) :
    g.Grows {t} {path} (g.registerSource t path) ∧
      (t < g.store.targets.length → (g.registerSource t path).Registered t path) ∧
      ∀ u, ∃ ids, (g.registerSource t path).target u = { g.target u with sources := ids } := by
  obtain ⟨hgrows, hlt, hpath, hindexed, htargets⟩ := sourceFor_spec hg path
  unfold registerSource
  generalize g.sourceFor path = out at *
  obtain ⟨id, found⟩ := out
  simp only at hgrows hlt hpath hindexed htargets ⊢
  have hmem : found.store.path id ∈ ({path} : Set String) := hpath
  -- The steps one after the other: an entry for the path, its mark, and the target that it is a
  -- source of.
  have hmarked : (found.modifySource id markOutput).store.IsOutput {path} id :=
    Store.isOutput_markOutput hlt hmem
  have hmarks : found.Grows {t} {path} (found.modifySource id markOutput) :=
    .of_store (Store.grows_markOutput hmem)
  have htarget (u : TargetId) : (found.modifySource id markOutput).store.target u =
      g.store.target u := by
    rw [Store.target, Store.target, ← htargets]
    rfl
  rw [addSource_eq]
  refine ⟨(hgrows.of_empty.trans hmarks).trans
    (.of_store (Store.grows_addSource (Set.mem_singleton t) hmarked)), fun ht => ?_, fun u => ?_⟩
  · rcases Store.addSource_cases (found.modifySource id markOutput).store t id with
      ⟨hpresent, heq⟩ | ⟨-, heq⟩
    · rw [heq]
      rw [hmarked.2.1] at hpresent
      exact ⟨id, hindexed, hmarked.2.2, hpresent⟩
    · rw [heq]
      refine ⟨id, hindexed, hmarked.2.2, ?_⟩
      have ht' : t < (found.modifySource id markOutput).store.targets.length := htargets ▸ ht
      rw [target, Store.target_modifyTarget, if_pos ⟨rfl, ht'⟩]
      exact List.mem_map.mpr ⟨id, by simp, hmarked.2.1⟩
  · rw [target, target, ← htarget u]
    rcases Store.addSource_cases (found.modifySource id markOutput).store t id with
      ⟨-, heq⟩ | ⟨-, heq⟩
    · rw [heq]
      exact ⟨_, rfl⟩
    · rw [heq, Store.target_modifyTarget]
      split
      · exact ⟨_, rfl⟩
      · exact ⟨_, rfl⟩

theorem grows_addToSourceGroup (g : Graph) (folders files : List String) :
    g.Grows planned outputs (g.addToSourceGroup folders files) :=
  ⟨.refl g.store, rfl, rfl, rfl, fun _ _ => .inl, fun _ _ h => h, fun _ h => h, fun _ => .inl⟩

/-- Adding a file to its source group leaves everything else alone. -/
theorem frame_groupFile (e : Effects) (file : GeneratedFile) :
    ∃ groups, (groupFile e file).1.graph = { e.graph with sourceGroups := groups } := by
  unfold groupFile
  simp only
  split
  · exact ⟨_, rfl⟩
  · split_ifs <;> exact ⟨_, rfl⟩

/-- A generated file is at most added to its source group, which leaves the store alone. -/
theorem groupFile_spec (e : Effects) (file : GeneratedFile) :
    e.graph.Grows ∅ ∅ (groupFile e file).1.graph ∧
      (groupFile e file).1.graph.store = e.graph.store := by
  unfold groupFile
  split
  · exact ⟨.refl _, rfl⟩
  · simp only
    split
    · exact ⟨.refl _, rfl⟩
    · split
      · exact ⟨.refl _, rfl⟩
      · exact ⟨grows_addToSourceGroup _ _ _, rfl⟩

/-- What registering files leaves behind, also when one of them fails. -/
theorem registerFiles_spec {e : Effects} (hg : e.graph.WellFormed) (t : TargetId)
    (files : List GeneratedFile) :
    e.graph.Grows {t} {path | path ∈ files.map (·.path)} (registerFiles t e files).1.graph ∧
      (t < e.graph.store.targets.length → (registerFiles t e files).2 = none →
        ∀ file ∈ files, (registerFiles t e files).1.graph.Registered t file.path) ∧
      ∀ u, ∃ ids, (registerFiles t e files).1.graph.target u =
        { e.graph.target u with sources := ids } := by
  induction files generalizing e with
  | nil => exact ⟨.refl _, fun _ _ file hfile => by simp at hfile, fun _ => ⟨_, rfl⟩⟩
  | cons file rest ih =>
    obtain ⟨hgrows, hregistered, htargets⟩ := registerSource_spec hg t file.path
    obtain ⟨hgroup, hstore⟩ :=
      groupFile_spec { e with graph := e.graph.registerSource t file.path } file
    have hall : {t} ⊆ ({t} : Set TargetId) := subset_rfl
    have hfirst : ({file.path} : Set String) ⊆ {path | path ∈ (file :: rest).map (·.path)} := by
      rintro path rfl
      exact List.mem_cons_self
    rw [registerFiles]
    generalize groupFile { e with graph := e.graph.registerSource t file.path } file = out at *
    obtain ⟨e', fault⟩ := out
    simp only at hgrows hgroup hstore hregistered htargets
    have hgrows' : e.graph.Grows {t} {file.path} e'.graph := hgrows.trans hgroup.of_empty
    have htargets' (u : TargetId) :
        ∃ ids, e'.graph.target u = { e.graph.target u with sources := ids } := by
      rw [target, hstore]
      exact htargets u
    cases fault with
    | some fault => exact ⟨hgrows'.mono hall hfirst, fun _ h => (by cases h), htargets'⟩
    | none =>
      obtain ⟨hrest, hregistered', hmore⟩ := ih (hg.grows hgrows')
      refine ⟨(hgrows'.mono hall hfirst).trans (hrest.mono hall ?_),
        fun ht hnone other hother => ?_, fun u => ?_⟩
      · exact fun path hpath => List.mem_cons_of_mem _ hpath
      -- What is registered stays registered, whatever follows.
      · rcases List.mem_cons.mp hother with rfl | hother
        · exact ((hregistered ht).grows (hg.grows hgrows) hgroup).grows (hg.grows hgrows') hrest
        · exact hregistered' (hgrows'.store.length_targets ▸ ht) hnone other hother
      · obtain ⟨ids, heq⟩ := htargets' u
        obtain ⟨ids', heq'⟩ := hmore u
        exact ⟨ids', by rw [heq', heq]⟩

theorem grows_addCleanFiles (g : Graph) (files : List String) :
    g.Grows planned outputs (g.addCleanFiles files) :=
  ⟨.refl g.store, rfl, rfl, rfl, fun _ _ => .inl, fun _ _ h => h, fun _ h => h, fun _ => .inl⟩

/-- What the files of a plan are registered in: a graph in which it is noted what cleaning has to
remove for the plan. -/
def prepared (g : Graph) (t : TargetId) (p : Plan) (ds : Diagnostics) : Effects :=
  ⟨g.addCleanFiles (p.buildDir :: g.oldSettingsFiles (g.target t)), ds⟩

theorem prepared_grows (g : Graph) (t : TargetId) (p : Plan) (ds : Diagnostics) :
    g.Grows planned outputs (g.prepared t p ds).graph :=
  grows_addCleanFiles g _

/-- The graph in which the step of a plan is registered and a utility of the target. -/
def withStep (g : Graph) (t : TargetId) (p : Plan) : Graph :=
  ({ g with utilitySteps :=
    g.utilitySteps.insert p.autogenTargetName (g.generationStep (g.target t) p) }
    : Graph).modifyTarget t (·.addUtility p.autogenTargetName)

/-- Carrying out a plan step by step. -/
theorem emit_eq [Environment] (g : Graph) (fs : FileSystem) (t : TargetId) (p : Plan)
    (ds : Diagnostics) :
    g.emit fs t p ds =
      match registerFiles t (g.prepared t p ds) p.generatedFiles with
      | (e, some fault) => ⟨e.graph, e.diagnostics, fs, .error fault⟩
      | (e, none) =>
        if e.graph.isTaken p.autogenTargetName = true then
          ⟨e.graph, e.diagnostics, fs, .error (.graph (.alreadyDefined p.autogenTargetName))⟩
        else
          let written := Descriptor.write fs (Path.ofString p.infoFile) p.render
          ⟨e.graph.withStep t p, e.diagnostics, written.1,
            (written.2.mapError RunFault.descriptor).map fun _ => Path.ofString p.infoFile⟩ := by
  unfold emit prepared
  simp only
  rcases registerFiles t _ p.generatedFiles with ⟨e, _ | fault⟩
  · have hname : (e.graph.generationStep (e.graph.target t) p).name = p.autogenTargetName := rfl
    simp only [addUtilityStep, hname]
    split_ifs with htaken
    · rfl
    · simp only [withStep]
      rcases Descriptor.write fs (Path.ofString p.infoFile) p.render with ⟨files, fault | done⟩
      · rfl
      · rfl
  · rfl

/-- Carrying out a plan stops where a file cannot be registered or the name of its step is taken.
Otherwise the step is registered, and then the descriptor is written or not. -/
theorem emit_cases [Environment] (g : Graph) (fs : FileSystem) (t : TargetId) (p : Plan)
    (ds : Diagnostics) :
    let out := registerFiles t (g.prepared t p ds) p.generatedFiles
    let written := Descriptor.write fs (Path.ofString p.infoFile) p.render
    ((out.2 ≠ none ∨ out.1.graph.isTaken p.autogenTargetName = true) ∧
        ∃ fault, g.emit fs t p ds = ⟨out.1.graph, out.1.diagnostics, fs, .error fault⟩) ∨
      out.2 = none ∧ out.1.graph.isTaken p.autogenTargetName = false ∧
        g.emit fs t p ds = ⟨out.1.graph.withStep t p, out.1.diagnostics, written.1,
          (written.2.mapError RunFault.descriptor).map fun _ => Path.ofString p.infoFile⟩ := by
  intro out written
  simp only [emit_eq, out, written]
  rcases registerFiles t (g.prepared t p ds) p.generatedFiles with ⟨e, _ | fault⟩
  · simp only
    split_ifs with htaken
    · exact .inl ⟨.inr htaken, _, rfl⟩
    · exact .inr ⟨trivial, Bool.eq_false_iff.mpr htaken, rfl⟩
  · exact .inl ⟨.inl (by simp), fault, rfl⟩

/-- The step of a planned target may be registered, and be a utility of the target. -/
theorem grows_withStep {p : Plan} (ht : t ∈ planned)
    (hname : p.autogenTargetName = (g.target t).autogenName) :
    g.Grows planned outputs (g.withStep t p) := by
  refine ⟨Store.grows_modifyTarget ht (fun _ => rfl) fun _ => rfl, rfl, rfl, rfl, fun _ _ => .inl,
    fun _ _ h => h, fun name hold => ?_, fun name hnew => ?_⟩
  · exact OrderedMap.contains_insert.mpr (.inl hold)
  · rcases OrderedMap.contains_insert.mp hnew with hold | heq
    · exact .inl hold
    · exact .inr ⟨t, ht, heq.trans hname⟩

/-- What carrying out a plan leaves behind, also when it fails. The targets change in their sources
and utilities alone. -/
theorem emit_spec [Environment] (hg : g.WellFormed) {p : Plan}
    (hname : p.autogenTargetName = (g.target t).autogenName) (fs : FileSystem) (ds : Diagnostics) :
    g.Grows {t} p.outputs (g.emit fs t p ds).graph ∧
      (t < g.store.targets.length → ∀ path, (g.emit fs t p ds).result = .ok path →
        ∀ file ∈ p.generatedFiles, (g.emit fs t p ds).graph.Registered t file.path) ∧
      ∀ u, ∃ ids utilities, (g.emit fs t p ds).graph.target u =
        { g.target u with sources := ids, utilities } := by
  have hclean : g.Grows {t} p.outputs (g.prepared t p ds).graph := prepared_grows g t p ds
  obtain ⟨hfiles, hregistered, htargets⟩ := registerFiles_spec (hg.grows hclean) t p.generatedFiles
  have hgrows := hclean.trans hfiles
  rcases emit_cases g fs t p ds with ⟨-, fault, heq⟩ | ⟨hnone, -, heq⟩
  · rw [heq]
    refine ⟨hgrows, fun _ path h => (by cases h), fun u => ?_⟩
    obtain ⟨ids, hids⟩ := htargets u
    exact ⟨ids, _, hids⟩
  · rw [heq]
    have hname' := hname.trans (hgrows.part Target.autogenName (fun _ => rfl) t).symm
    have hstep : (registerFiles t (g.prepared t p ds) p.generatedFiles).1.graph.Grows {t} p.outputs
        ((registerFiles t (g.prepared t p ds) p.generatedFiles).1.graph.withStep t p) :=
      grows_withStep (Set.mem_singleton t) hname'
    refine ⟨hgrows.trans hstep, fun ht _ _ file hfile => ?_, fun u => ?_⟩
    · exact (hregistered ht hnone file hfile).grows (hg.grows hgrows) hstep
    · obtain ⟨ids, hids⟩ := htargets u
      simp only [target] at hids
      simp only [withStep, target, modifyTarget, Store.target_modifyTarget, hids]
      split
      · exact ⟨_, _, rfl⟩
      · exact ⟨_, _, rfl⟩

/-- Registering files comes to its end where every source group has a delimiter. -/
theorem registerFiles_returns {e : Effects} (hg : e.graph.WellFormed) {files : List GeneratedFile}
    (hgroups : e.graph.settings.sourceGroupDelimiter ≠ "" ∨
      ∀ file ∈ files, e.graph.settings.groupFor file.tool = none) :
    (registerFiles t e files).2 = none := by
  induction files generalizing e with
  | nil => rfl
  | cons file rest ih =>
    obtain ⟨hgrows, -, -⟩ := registerSource_spec hg t file.path
    obtain ⟨hgroup, -⟩ :=
      groupFile_spec { e with graph := e.graph.registerSource t file.path } file
    have hgrows' := hgrows.trans hgroup.of_empty
    -- A name of a group is split at the delimiter, which fails only for an empty one.
    have hfault : (groupFile { e with graph := e.graph.registerSource t file.path } file).2 =
        none := by
      unfold groupFile
      simp only [hgrows.settings]
      split
      · rfl
      · rename_i name hname
        rcases hgroups with hdelimiter | hnone
        · rw [if_neg hdelimiter]
          split <;> rfl
        · rw [hnone file List.mem_cons_self] at hname
          cases hname
    rw [registerFiles]
    generalize groupFile { e with graph := e.graph.registerSource t file.path } file = out at *
    obtain ⟨e', fault⟩ := out
    subst hfault
    refine ih (hg.grows hgrows') ?_
    rw [hgrows'.settings]
    exact hgroups.imp_right fun hnone other hother => hnone other (List.mem_cons_of_mem _ hother)

/-- A plan is carried out when the source groups of its outputs have a delimiter, the name of its
step is not taken and its descriptor can be written. -/
theorem emit_returns [Environment] (hg : g.WellFormed) {p : Plan} {ds : Diagnostics}
    (hgroups : g.settings.sourceGroupDelimiter ≠ "" ∨
      ∀ file ∈ p.generatedFiles, g.settings.groupFor file.tool = none)
    (hfree : g.isTaken p.autogenTargetName = false)
    (hwrite : (Descriptor.write fs (Path.ofString p.infoFile) p.render).2 = .ok ()) :
    (g.emit fs t p ds).result = .ok (Path.ofString p.infoFile) := by
  have hclean : g.Grows {t} p.outputs (g.prepared t p ds).graph := prepared_grows g t p ds
  obtain ⟨hfiles, -, -⟩ := registerFiles_spec (hg.grows hclean) t p.generatedFiles
  have hgrows := hclean.trans hfiles
  rcases emit_cases g fs t p ds with ⟨hfails | htaken, -⟩ | ⟨-, -, heq⟩
  · exact absurd (registerFiles_returns (hg.grows hclean) hgroups) hfails
  · rw [isTaken, hgrows.targets, hgrows.importedTargets] at htaken
    exact absurd hfree (by rw [isTaken, htaken]; decide)
  · rw [heq, hwrite]
    rfl

/-! ## Running -/

/-- What is found out about a target whose sources are examined. -/
theorem findings_of_examine [Environment] {x : Target} {sources : List SourceFile}
    {ds noted : Diagnostics} {f : Findings} (h : g.examine fs x sources ds = (noted, .ok f)) :
    let major := g.majorVersion x ds
    let minor := g.minorVersion x major.1 major.2
    f.major = major.1 ∧ f.minor = minor.1 ∧
      f.rccBinding = g.bindEnabled x x.properties.autorcc .rcc major.1 ∧
      (g.bindEnabled x x.properties.automoc .moc major.1).mapM
        (fun binding => g.mocSettings x binding major.1 minor.1) = .ok f.moc ∧
      f.uic = (g.bindEnabled x x.properties.autouic .uic major.1).map
        (fun binding => g.uicSettings x binding f.classification) ∧
      ∃ warnings, (x.classifier g.settings).classify fs sources = .ok (f.classification, warnings) ∧
        noted = (minor.2.warnings warnings).errors (bindingFaults
          [g.bindEnabled x x.properties.automoc .moc major.1,
            g.bindEnabled x x.properties.autouic .uic major.1,
            g.bindEnabled x x.properties.autorcc .rcc major.1]) := by
  unfold examine at h
  simp only at h
  split at h
  · cases h
  · rename_i classification warnings hclassify
    split at h
    · cases h
    · rename_i moc hmoc
      cases h
      exact ⟨rfl, rfl, rfl, hmoc, rfl, warnings, hclassify, rfl⟩

/-- A plan that is made is put together from what is known about its target. -/
theorem planRegistered_eq_ok [Environment] {ds : Diagnostics} {p : Plan}
    (h : (g.planRegistered fs lister t ds).result = .ok p) :
    ∃ findings found,
      ((g.plannedSources t).2.examine fs (g.target t) (g.plannedSources t).1 ds).2 = .ok findings ∧
        p = g.assemble (g.target t) findings found := by
  unfold planRegistered at h
  simp only at h
  split at h
  · cases h
  · rename_i findings hexamine
    split at h
    · cases h
    · rename_i found _
      split at h
      · cases h
      · cases h
        exact ⟨findings, found, congrArg Prod.snd hexamine, rfl⟩

/-- A target that a plan is made of has a generator enabled, and is known with its directory of
generated headers by then. -/
theorem findings_of_plan [Environment] {p : Plan} (h : (g.plan fs lister t).result = .ok p) :
    (g.target t).properties.anyGeneratorEnabled = true ∧ ∃ findings found,
      (((g.included t).plannedSources t).2.examine fs ((g.included t).target t)
        ((g.included t).plannedSources t).1 { target := some (g.target t).name }).2 = .ok findings ∧
      p = (g.included t).assemble ((g.included t).target t) findings found := by
  rw [plan_eq] at h
  split at h
  · rename_i henabled
    exact ⟨henabled, planRegistered_eq_ok h⟩
  · cases h

/-- A plan is made of a target of the store and names the step of the target. -/
theorem plan_eq_ok [Environment] {p : Plan} (h : (g.plan fs lister t).result = .ok p) :
    t < g.store.targets.length ∧ p.autogenTargetName = (g.target t).autogenName := by
  obtain ⟨henabled, findings, found, -, rfl⟩ := findings_of_plan h
  refine ⟨?_, part_included Target.autogenName (fun _ _ => rfl) t⟩
  by_contra hle
  rw [target, Store.target_of_le (Nat.le_of_not_lt hle)] at henabled
  exact absurd henabled Bool.false_ne_true

/-- A run that fails in planning leaves the graph of the plan. -/
theorem run_eq_of_error [Environment] {fault : PlanFault}
    (h : (g.plan fs lister t).result = .error fault) :
    g.run fs lister t = ⟨(g.plan fs lister t).graph, fs, .error (.plan fault)⟩ := by
  unfold run
  simp only [h]

/-- A run that does not fail in planning carries out the plan. -/
theorem run_eq_of_ok [Environment] {p : Plan} (h : (g.plan fs lister t).result = .ok p) :
    g.run fs lister t =
      let done := (g.plan fs lister t).graph.emit fs t p (g.plan fs lister t).diagnostics
      ⟨done.graph, done.files, done.result.map fun path => ⟨p, path, done.diagnostics⟩⟩ := by
  unfold run
  simp only [h]

/-- A run that fails in planning leaves the graph of the plan, and any other run that of carrying
out the plan. -/
theorem run_graph [Environment] (g : Graph) (fs : FileSystem) (lister : ResourceLister)
    (t : TargetId) :
    (∃ fault, (g.plan fs lister t).result = .error fault ∧
        g.run fs lister t = ⟨(g.plan fs lister t).graph, fs, .error (.plan fault)⟩) ∨
      ∃ p, (g.plan fs lister t).result = .ok p ∧ g.run fs lister t =
        let done := (g.plan fs lister t).graph.emit fs t p (g.plan fs lister t).diagnostics
        ⟨done.graph, done.files, done.result.map fun path => ⟨p, path, done.diagnostics⟩⟩ := by
  cases h : (g.plan fs lister t).result with
  | error fault => exact .inl ⟨fault, rfl, run_eq_of_error h⟩
  | ok p => exact .inr ⟨p, rfl, run_eq_of_ok h⟩

/-- When a plan is carried out, its files are registered, the name of its step is free, and its
descriptor is written. -/
theorem emit_eq_ok [Environment] {p : Plan} {ds : Diagnostics} {path : Path}
    (h : (g.emit fs t p ds).result = .ok path) :
    ∃ e, registerFiles t (g.prepared t p ds) p.generatedFiles = (e, none) ∧
      e.graph.isTaken p.autogenTargetName = false ∧ path = Path.ofString p.infoFile ∧
      Descriptor.write fs path p.render = ((g.emit fs t p ds).files, .ok ()) ∧
      g.emit fs t p ds =
        ⟨e.graph.withStep t p, e.diagnostics, (g.emit fs t p ds).files, .ok path⟩ := by
  rcases emit_cases g fs t p ds with ⟨-, fault, heq⟩ | ⟨hnone, hfree, heq⟩
  · rw [heq] at h
    cases h
  · rw [heq] at h ⊢
    rcases hwrite : Descriptor.write fs (Path.ofString p.infoFile) p.render
      with ⟨files, fault | done⟩
    · rw [hwrite] at h
      cases h
    · rw [hwrite] at h
      obtain rfl := Except.ok.inj h
      exact ⟨_, Prod.ext rfl hnone, hfree, rfl, hwrite, rfl⟩

/-- A run that returns has made a plan and carried it out. -/
theorem run_emits [Environment] {r : RunResult} (h : (g.run fs lister t).result = .ok r) :
    (g.plan fs lister t).result = .ok r.plan ∧
      ((g.plan fs lister t).graph.emit fs t r.plan (g.plan fs lister t).diagnostics).result =
        .ok r.descriptor ∧
      g.run fs lister t =
        let done := (g.plan fs lister t).graph.emit fs t r.plan (g.plan fs lister t).diagnostics
        ⟨done.graph, done.files, .ok ⟨r.plan, r.descriptor, done.diagnostics⟩⟩ := by
  rcases run_graph g fs lister t with ⟨fault, -, heq⟩ | ⟨p, hp, heq⟩
  · rw [heq] at h
    cases h
  · rw [heq] at h ⊢
    cases hdone :
      ((g.plan fs lister t).graph.emit fs t p (g.plan fs lister t).diagnostics).result with
    | error fault =>
      simp only [hdone] at h
      cases h
    | ok path =>
      simp only [hdone] at h
      obtain rfl := Except.ok.inj h
      refine ⟨hp, hdone, ?_⟩
      simp only [hdone]
      rfl

/-- A run that returns has its plan written down. -/
theorem run_eq_ok [Environment] {r : RunResult} (h : (g.run fs lister t).result = .ok r) :
    (g.plan fs lister t).result = .ok r.plan ∧ r.descriptor = Path.ofString r.plan.infoFile ∧
      Descriptor.write fs r.descriptor r.plan.render = ((g.run fs lister t).files, .ok ()) := by
  obtain ⟨hplan, hdone, heq⟩ := run_emits h
  obtain ⟨e, -, -, hpath, hwrite, -⟩ := emit_eq_ok hdone
  rw [heq]
  exact ⟨hplan, hpath, hwrite⟩

/-- A run returns when its plan is made and can be carried out. -/
theorem run_returns [Environment] (hg : g.WellFormed) (hfresh : g.Fresh) {p : Plan}
    (hplan : (g.plan fs lister t).result = .ok p)
    (hgroups : g.settings.sourceGroupDelimiter ≠ "" ∨
      ∀ file ∈ p.generatedFiles, g.settings.groupFor file.tool = none)
    (hfree : g.isTaken p.autogenTargetName = false)
    (hwrite : (Descriptor.write fs (Path.ofString p.infoFile) p.render).2 = .ok ()) :
    ∃ r, (g.run fs lister t).result = .ok r := by
  have hplanned : g.Grows {t} ∅ (g.plan fs lister t).graph := plan_grows hg hfresh fs lister t
  have hemit : ((g.plan fs lister t).graph.emit fs t p (g.plan fs lister t).diagnostics).result =
      .ok (Path.ofString p.infoFile) := by
    refine emit_returns (hg.grows hplanned) (hplanned.settings ▸ hgroups) ?_ hwrite
    rw [isTaken, hplanned.targets, hplanned.importedTargets]
    exact hfree
  rcases run_graph g fs lister t with ⟨fault, hfault, -⟩ | ⟨q, hq, heq⟩
  · rw [hplan] at hfault
    cases hfault
  · cases hplan.symm.trans hq
    rw [heq]
    simp only [hemit]
    exact ⟨_, rfl⟩

/-- A run makes a graph grow by the outputs of its plan, and the lists stay fresh. -/
theorem run_spec [Environment] (hg : g.WellFormed) (hfresh : g.Fresh) (fs : FileSystem)
    (lister : ResourceLister) (t : TargetId) :
    g.Grows {t} {path | ∃ p, (g.plan fs lister t).result = .ok p ∧ path ∈ p.outputs}
        (g.run fs lister t).graph ∧ (g.run fs lister t).graph.Fresh ∧
      ∀ r, (g.run fs lister t).result = .ok r → (g.plan fs lister t).result = .ok r.plan ∧
        ∀ file ∈ r.plan.generatedFiles, (g.run fs lister t).graph.Registered t file.path := by
  obtain ⟨hgrows, hfresh', hforgotten⟩ := plan_graph hg hfresh fs lister t
  have hg' := hg.grows hgrows
  rcases run_graph g fs lister t with ⟨fault, hfault, heq⟩ | ⟨p, hp, heq⟩
  · rw [heq]
    exact ⟨hgrows.mono subset_rfl (Set.empty_subset _), hfresh', fun r hr => by cases hr⟩
  · obtain ⟨ht, hname⟩ := plan_eq_ok hp
    have hname' := hname.trans (hgrows.part Target.autogenName (fun _ => rfl) t).symm
    obtain ⟨hemit, hregistered, htargets⟩ :=
      emit_spec hg' hname' fs (g.plan fs lister t).diagnostics
    have houtputs :
        p.outputs ⊆ {path | ∃ p, (g.plan fs lister t).result = .ok p ∧ path ∈ p.outputs} :=
      fun path hpath => ⟨p, hp, hpath⟩
    rw [heq]
    refine ⟨(hgrows.mono subset_rfl (Set.empty_subset _)).trans (hemit.mono subset_rfl houtputs),
      ?_, fun r hr => ?_⟩
    · -- Sources are added to the target alone, about which nothing is remembered anywhere.
      refine (Store.fresh_iff (hg'.grows hemit).linked).mpr ?_
      refine Store.RemembersMerged.congr hg'.linked ((Store.fresh_iff hg'.linked).mp hfresh')
        hemit.store.length_targets (fun id hid => hemit.store.path hid) fun u ids hids => ?_
      obtain ⟨_, _, heq⟩ := htargets u
      have hold : ((g.plan fs lister t).graph.target u).sourceCache = some ids := by
        simp only [target] at heq hids
        rw [heq] at hids
        exact hids
      refine ⟨hold, fun v hv => ⟨?_, hemit.part Target.objectLibraries (fun _ => rfl) v⟩⟩
      exact hemit.store.sources_unplanned ((hforgotten p hp).ne_of_reaches hold hv)
    · cases hdone :
        ((g.plan fs lister t).graph.emit fs t p (g.plan fs lister t).diagnostics).result with
      | error fault =>
        simp only [hdone] at hr
        cases hr
      | ok path =>
        simp only [hdone] at hr
        cases hr
        exact ⟨hp, hregistered (hgrows.store.length_targets ▸ ht) path hdone⟩

theorem run_grows [Environment] (hg : g.WellFormed) (hfresh : g.Fresh) (fs : FileSystem)
    (lister : ResourceLister) (t : TargetId) :
    g.Grows {t} {path | ∃ p, (g.plan fs lister t).result = .ok p ∧ path ∈ p.outputs}
      (g.run fs lister t).graph :=
  (run_spec hg hfresh fs lister t).1

end Graph

end Autogen
