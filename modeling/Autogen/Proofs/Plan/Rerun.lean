import Autogen.Proofs.Plan.Decode
import Autogen.Proofs.FileSystem.Linkless
import Autogen.Proofs.Plan.Repetition

/-!
# Running a target again

A run changes nearly everything that the next one looks at: include directories, sources and their
marks, known names and the tree of files. None of it shows in the next plan, and nothing is left to
be done of a plan that has been carried out.

## Main statements

* `Graph.rerun_of_run` — a run after a run.
-/

namespace Autogen

open FileSystem

section

variable [Environment]

omit [Environment] in
/-- A directory of generated headers is noted once. -/
theorem withIncludeDir_again {x y : Target} {directory : Option String}
    (h : y.includeDirectories = (x.withIncludeDir directory).includeDirectories) :
    y.withIncludeDir directory = y := by
  unfold Target.withIncludeDir at h ⊢
  split
  · rename_i dir heq
    have hmem : dir ∈ y.includeDirectories := by
      rw [h]
      simp only [heq]
      unfold Target.addIncludeDirectory
      split
      · assumption
      · exact List.mem_cons_self
    rw [Target.addIncludeDirectory, if_pos hmem]
  · rfl

omit [Environment] in
/-- Targets that are the same but for what is remembered. -/
theorem eq_of_bare {x y : Target} (h : x.bare = y.bare) :
    ∃ cache, x = { y with sourceCache := cache } := by
  have hcache : { x.bare with sourceCache := x.sourceCache } =
      { y.bare with sourceCache := x.sourceCache } := by rw [h]
  exact ⟨x.sourceCache, hcache⟩

namespace Graph

variable {g g' : Graph} {t : TargetId} {fs : FileSystem} {p : Plan}

omit [Environment] in
/-- What is remembered and what calls for a new configuration makes no difference to what is left to
be done of a plan. -/
theorem CarriedOut.of_bare (hg : g.WellFormed) (h : g.CarriedOut t p) {store : Store}
    (hbare : store.bare = g.store.bare) (files : OrderedSet String) :
    ({ g with store, reconfigureFiles := files } : Graph).CarriedOut t p := by
  have hgrows : g.Grows ∅ ∅ { g with store, reconfigureFiles := files } :=
    ⟨.of_bare hbare, rfl, rfl, rfl, fun _ _ => .inl, fun _ _ => id, fun _ => id, fun _ => .inl⟩
  refine ⟨?_, fun file hfile => (h.registered file hfile).grows hg hgrows,
    fun file hfile => (h.grouped file hfile).grows (.of_eq rfl rfl), h.free, ?_, ?_⟩
  · rw [oldSettingsFiles_grows hgrows]
    exact h.clean
  · rw [generationStep_grows hgrows]
    exact h.step
  · have hutilities : (store.target t).utilities = (g.store.target t).utilities :=
      Store.part_eq_of_bare Target.utilities (fun _ => rfl) hbare t
    rw [target, hutilities]
    exact h.utility

theorem target_included (g : Graph) (t : TargetId) : (g.included t).target t =
    if t < g.store.targets.length then (g.target t).withIncludeDir
      ((g.target t).includeDir? g.settings)
    else g.target t := by
  rw [included, target, modifyTarget, Store.target_modifyTarget]
  simp only [true_and]
  rfl

theorem includeDir?_grows {planned : Set TargetId} {outputs : Set String}
    (h : g.Grows planned outputs g') :
    (g'.target t).includeDir? g'.settings = (g.target t).includeDir? g.settings := by
  rw [h.settings]
  exact h.part (·.includeDir? g.settings) (fun _ => rfl) t

/-! ## After a run -/

variable {lister : ResourceLister} {r : RunResult}

theorem enabled_of_plan (h : (g.plan fs lister t).result = .ok p) :
    (g.target t).properties.anyGeneratorEnabled = true :=
  (findings_of_plan h).1

theorem plan_of_enabled (fs : FileSystem) (lister : ResourceLister)
    (h : (g.target t).properties.anyGeneratorEnabled = true) :
    g.plan fs lister t =
      (g.included t).planRegistered fs lister t { target := some (g.target t).name } := by
  rw [plan_eq, if_pos h]

/-- A target that was planned knows its directory of generated headers. -/
theorem target_of_plan (h : (g.plan fs lister t).result = .ok p) : ∃ cache,
    (g.plan fs lister t).graph.target t =
      { (g.included t).target t with sourceCache := cache } := by
  have hbare : (g.plan fs lister t).graph.store.bare = (g.included t).store.bare := by
    rw [plan_of_enabled fs lister (enabled_of_plan h)]
    exact bare_planRegistered _ fs lister t _
  have hsame : ((g.plan fs lister t).graph.target t).bare = ((g.included t).target t).bare :=
    (Store.bare_eq_iff.mp hbare).2.2 t
  exact eq_of_bare hsame

/-- A target whose plan was carried out has the step of the plan among its utilities. -/
theorem target_of_emit {ds : Diagnostics} {path : Path} (hg : g.WellFormed)
    (ht : t < g.store.targets.length) (h : (g.emit fs t p ds).result = .ok path) :
    ∃ ids, (g.emit fs t p ds).graph.target t = { g.target t with
      sources := ids, utilities := (g.target t).utilities.insert p.autogenTargetName } := by
  obtain ⟨e, hfiles, -, -, -, hemit⟩ := emit_eq_ok h
  have hclean : g.Grows {t} p.outputs (g.prepared t p ds).graph := prepared_grows g t p ds
  obtain ⟨hgrows, -, htargets⟩ := registerFiles_spec (hg.grows hclean) t p.generatedFiles
  rw [hfiles] at hgrows htargets
  obtain ⟨ids, hids⟩ := htargets t
  have he : t < e.graph.store.targets.length := by
    rw [hgrows.store.length_targets, hclean.store.length_targets]
    exact ht
  have htarget : e.graph.store.target t = { g.target t with sources := ids } := hids
  have hgraph : (g.emit fs t p ds).graph = e.graph.withStep t p := by rw [hemit]
  refine ⟨ids, ?_⟩
  rw [hgraph, withStep, target, modifyTarget, Store.target_modifyTarget, if_pos ⟨rfl, he⟩, htarget]
  rfl

/-- The target of a run that returned knows its directory of generated headers and has its step
among its utilities. -/
theorem target_of_run (hg : g.WellFormed) (hfresh : g.Fresh)
    (h : (g.run fs lister t).result = .ok r) :
    ∃ ids cache, (g.run fs lister t).graph.target t = { (g.included t).target t with
      sources := ids
      utilities := (g.target t).utilities.insert (g.target t).autogenName
      sourceCache := cache } := by
  obtain ⟨hplan, hdone, heq⟩ := run_emits h
  obtain ⟨ht, hname⟩ := plan_eq_ok hplan
  have hgrows := plan_grows hg hfresh fs lister t
  have ht' : t < (g.plan fs lister t).graph.store.targets.length := by
    rw [hgrows.store.length_targets]
    exact ht
  obtain ⟨cache, hcache⟩ := target_of_plan hplan
  obtain ⟨ids, hids⟩ := target_of_emit (hg.grows hgrows) ht' hdone
  have hutilities : ((g.included t).target t).utilities = (g.target t).utilities :=
    part_included Target.utilities (fun _ _ => rfl) t
  refine ⟨ids, cache, ?_⟩
  rw [heq, hids, hcache, hname, ← hutilities]

/-- After a run that returned, the target knows its directory of generated headers. -/
theorem included_of_run (hg : g.WellFormed) (hfresh : g.Fresh)
    (h : (g.run fs lister t).result = .ok r) :
    (g.run fs lister t).graph.included t = (g.run fs lister t).graph ∧
      ((g.run fs lister t).graph.target t).face = ((g.included t).target t).face := by
  obtain ⟨ids, cache, htarget⟩ := target_of_run hg hfresh h
  obtain ⟨ht, -⟩ := plan_eq_ok (run_emits h).1
  have hgrows := run_grows hg hfresh fs lister t
  have hface : ((g.run fs lister t).graph.target t).face = ((g.included t).target t).face := by
    rw [htarget]
    rfl
  refine ⟨?_, hface⟩
  have hdirectory := includeDir?_grows (t := t) hgrows
  have hnoted : ((g.run fs lister t).graph.store.target t).withIncludeDir
      ((g.target t).includeDir? g.settings) = (g.run fs lister t).graph.store.target t := by
    have hincluded := target_included g t
    rw [if_pos ht] at hincluded
    refine withIncludeDir_again (x := g.target t) ?_
    rw [← hincluded]
    exact congrArg (·.includeDirectories) hface
  rw [included, hdirectory, modifyTarget, Store.modifyTarget_self hnoted]

/-- After a run that returned, the names that the dependencies of the target are made from are known
as before, if the target does not name its own step. -/
theorem knownAlike_of_run (hg : g.WellFormed) (hfresh : g.Fresh)
    (h : (g.run fs lister t).result = .ok r)
    (hstep : (g.target t).autogenName ∉ (g.target t).properties.autogenTargetDepends) :
    (g.included t).KnownAlike t (g.run fs lister t).graph := by
  obtain ⟨ids, cache, htarget⟩ := target_of_run hg hfresh h
  have hgrows := run_grows hg hfresh fs lister t
  have hknown {name : String} (hname : name ≠ (g.target t).autogenName) :
      (g.run fs lister t).graph.isKnown name = (g.included t).isKnown name := by
    refine isKnown_of_unplanned hgrows fun u hu => ?_
    rw [Set.mem_singleton_iff.mp hu]
    exact hname
  refine ⟨fun token htoken => hknown ?_, fun binding lister' => ?_⟩
  · rintro rfl
    rw [part_included (·.properties) fun _ _ => rfl] at htoken
    exact hstep htoken
  · have hname : ((g.included t).target t).autogenName = (g.target t).autogenName :=
      part_included Target.autogenName (fun _ _ => rfl) t
    have hutilities : ((g.included t).target t).utilities = (g.target t).utilities :=
      part_included Target.utilities (fun _ _ => rfl) t
    -- The step of the target is the one name that is known from now on, and it never depends on its
    -- own step.
    have hkept (name : String) :
        (!([(g.target t).autogenName] : List String).contains name &&
            (g.run fs lister t).graph.isKnown name) =
          (!([(g.target t).autogenName] : List String).contains name &&
            (g.included t).isKnown name) := by
      by_cases heq : name = (g.target t).autogenName
      · simp [heq]
      · rw [hknown heq]
    have hexcluded : [(g.target t).autogenName].filter (fun name =>
        !([(g.target t).autogenName] : List String).contains name &&
          (g.included t).isKnown name) = [] := by
      simp
    have hafter : ((g.run fs lister t).graph.target t).autogenName = (g.target t).autogenName := by
      rw [htarget]
      exact hname
    unfold DependencyRequest.linked Target.dependencyRequest
    simp only [hafter, hname, hkept]
    rw [htarget, hutilities]
    simp only [OrderedSet.toList_insert]
    split
    · rfl
    · simp only [List.filter_append, hexcluded, List.append_nil]

/-- A graph without what is remembered in it. -/
def bare (g : Graph) : Graph :=
  { g with store := g.store.bare }

/-- After a run that returned, nothing is left to be done of its plan, and its resource files call
for a new configuration. -/
theorem carriedOut_of_run (hg : g.WellFormed) (hfresh : g.Fresh)
    (h : (g.run fs lister t).result = .ok r) :
    (g.run fs lister t).graph.CarriedOut t r.plan ∧
      ∀ resource ∈ r.plan.classification.resources, resource.generated = false →
        resource.path ∈ (g.run fs lister t).graph.reconfigureFiles.toList := by
  obtain ⟨hplan, hdone, heq⟩ := run_emits h
  obtain ⟨ht, hname⟩ := plan_eq_ok hplan
  obtain ⟨e, hfiles, -, -, -, hemit⟩ := emit_eq_ok hdone
  have hplanned := plan_grows hg hfresh fs lister t
  have ht' : t < (g.plan fs lister t).graph.store.targets.length := by
    rw [hplanned.store.length_targets]
    exact ht
  have hname' := hname.trans (hplanned.part Target.autogenName (fun _ => rfl) t).symm
  have hregistered := plan_of_enabled fs lister (enabled_of_plan hplan)
  rw [heq]
  refine ⟨carriedOut_of_emit (hg.grows hplanned) ht' hname' hdone,
    fun resource hresource hown => ?_⟩
  have hkept := (registerFiles_grouped (congrArg Prod.snd hfiles)).1.reconfigureFiles
  rw [hfiles] at hkept
  have hgraph :
      ((g.plan fs lister t).graph.emit fs t r.plan (g.plan fs lister t).diagnostics).graph =
      e.graph.withStep t r.plan := by rw [hemit]
  have hsame :
      (e.graph.withStep t r.plan).reconfigureFiles = (g.plan fs lister t).graph.reconfigureFiles :=
    hkept
  simp only [hgraph, hsame]
  rw [hregistered] at hplan ⊢
  rw [reconfigureFiles_of_plan (hg.grows (included_grows g t : g.Grows {t} ∅ _))
    (fresh_included hg hfresh) hplan]
  refine OrderedSet.mem_insertAll.mpr (.inr (OrderedSet.mem_ofList.mpr ?_))
  refine List.mem_map_of_mem (List.mem_filter.mpr ⟨hresource, ?_⟩)
  simp [hown]

/-- Making a plan changes nothing but what is remembered, if the target knows its directory of
generated headers and the resource files of the plan call for a new configuration already. -/
theorem graph_of_plan (hg : g.WellFormed) (hfresh : g.Fresh) (hincluded : g.included t = g)
    (h : (g.plan fs lister t).result = .ok p)
    (hwatched : ∀ resource ∈ p.classification.resources, resource.generated = false →
      resource.path ∈ g.reconfigureFiles.toList) :
    ∃ store, (g.plan fs lister t).graph = { g with store } ∧ store.bare = g.store.bare := by
  have hregistered := plan_of_enabled fs lister (enabled_of_plan h)
  rw [hincluded] at hregistered
  rw [hregistered] at h ⊢
  obtain ⟨files, store, hgraph, hbare, -, -⟩ :=
    planRegistered_graph hg hfresh fs lister t { target := some (g.target t).name }
  have hkept : g.reconfigureFiles.insertAll files = g.reconfigureFiles := by
    have hnoted := reconfigureFiles_of_plan hg hfresh h
    rw [hgraph] at hnoted
    refine hnoted.trans (OrderedSet.insertAll_of_subset fun file hfile => ?_)
    obtain ⟨resource, hresource, rfl⟩ := List.mem_map.mp (OrderedSet.mem_ofList.mp hfile)
    obtain ⟨hmem, hown⟩ := List.mem_filter.mp hresource
    exact hwatched resource hmem (by simpa using hown)
  rw [hgraph, hkept]
  exact ⟨store, rfl, hbare⟩

/-- Where the next plan is the same and the same is said about it, the next run leaves everything as
it is. -/
theorem run_of_carriedOut (hg : g.WellFormed) (hfresh : g.Fresh) (htree : fs.IsTree)
    (h : (g.run fs lister t).result = .ok r)
    (hplan : ((g.run fs lister t).graph.plan (g.run fs lister t).files lister t).result =
      .ok r.plan)
    (hsaid : ((g.run fs lister t).graph.plan (g.run fs lister t).files lister t).diagnostics =
      (g.plan fs lister t).diagnostics) :
    ((g.run fs lister t).graph.run (g.run fs lister t).files lister t).result = .ok r ∧
      ((g.run fs lister t).graph.run (g.run fs lister t).files lister t).files =
        (g.run fs lister t).files ∧
      ((g.run fs lister t).graph.run (g.run fs lister t).files lister t).graph.bare =
        (g.run fs lister t).graph.bare := by
  obtain ⟨-, hdone, heq⟩ := run_emits h
  obtain ⟨-, hdescriptor, hwrite⟩ := run_eq_ok h
  obtain ⟨e, hfiles, -, -, -, hemit⟩ := emit_eq_ok hdone
  obtain ⟨hcarried, hwatched⟩ := carriedOut_of_run hg hfresh h
  obtain ⟨hincluded, -⟩ := included_of_run hg hfresh h
  have hgrows := run_grows hg hfresh fs lister t
  have hg' := hg.grows hgrows
  have hfresh' : (g.run fs lister t).graph.Fresh := (run_spec hg hfresh fs lister t).2.1
  have hagain := Descriptor.write_write htree hwrite
  have hdiagnostics : r.diagnostics = e.diagnostics := by
    have hresult := congrArg (·.result) heq
    simp only [h, Except.ok.injEq] at hresult
    rw [hresult, hemit]
  have hsettings : (g.plan fs lister t).graph.settings = (g.run fs lister t).graph.settings := by
    rw [hgrows.settings, (plan_grows hg hfresh fs lister t).settings]
  -- The second run starts from what the first one left: planning changes what is remembered at
  -- most, and with nothing left to be done the plan is carried out without any effect.
  generalize (g.run fs lister t).graph = g' at *
  generalize (g.run fs lister t).files = fs' at *
  obtain ⟨store, hgraph, hbare⟩ := graph_of_plan hg' hfresh' hincluded hplan hwatched
  have hg'' : ({ g' with store } : Graph).WellFormed :=
    hg'.grows (.of_store (.of_bare hbare) : g'.Grows ∅ ∅ _)
  have hcarried' : ({ g' with store } : Graph).CarriedOut t r.plan :=
    hcarried.of_bare hg' hbare g'.reconfigureFiles
  rw [hdescriptor] at hagain
  have hemitted := hcarried'.emit hg'' hsettings (congrArg Prod.snd hfiles) hagain
  rw [hfiles] at hemitted
  have hrun : g'.run fs' lister t = ⟨{ g' with store }, fs', .ok r⟩ := by
    unfold run
    simp only [hplan, hgraph, hsaid, hemitted]
    rw [← hdescriptor, ← hdiagnostics]
    rfl
  rw [hrun]
  refine ⟨rfl, rfl, ?_⟩
  rw [bare, bare, hbare]

theorem result_of_fault {fault : PlanFault} (h : (g.plan fs lister t).result = .error fault) :
    (g.run fs lister t).result = .error (.plan fault) := by
  rcases run_graph g fs lister t with ⟨other, hother, heq⟩ | ⟨p, hp, -⟩
  · obtain rfl := Except.error.inj (h.symm.trans hother)
    rw [heq]
  · rw [h] at hp
    cases hp

theorem run_files_grows (htree : fs.IsTree) (g : Graph) (lister : ResourceLister) (t : TargetId) :
    fs.Grows (g.run fs lister t).files := by
  rcases run_graph g fs lister t with ⟨fault, -, heq⟩ | ⟨p, -, heq⟩
  · rw [heq]
    exact .refl fs
  · rw [heq]
    rcases emit_cases (g.plan fs lister t).graph fs t p (g.plan fs lister t).diagnostics with
      ⟨-, fault, heq⟩ | ⟨-, -, heq⟩
    · simp only [heq]
      exact .refl fs
    · simp only [heq]
      exact Descriptor.write_grows htree (Path.ofString p.infoFile) p.render

/-- The plan after a run that returned is the one before it, in whatever trees the two are made, if
one has grown from the other. -/
theorem plan_after_run {tree tree' : FileSystem} (hg : g.WellFormed) (hfresh : g.Fresh)
    (h : (g.run fs declaredInputs t).result = .ok r)
    (havoid : ∀ source ∈ g.store.inputs t, source.path ∉ r.plan.outputs)
    (hstep : (g.target t).autogenName ∉ (g.target t).properties.autogenTargetDepends)
    (hgrows : tree.Grows tree') (htree : tree.IsTree) (hanchored : g.Anchored tree t) :
    let before := g.plan tree declaredInputs t
    let after := (g.run fs declaredInputs t).graph.plan tree' declaredInputs t
    (∃ text, after.result = .error (.path (.linkLoop text)) ∧ tree.Tangled text) ∨
      after.result = before.result ∧ after.diagnostics = before.diagnostics := by
  intro before after
  obtain ⟨hincluded, hface⟩ := included_of_run hg hfresh h
  obtain ⟨hgrown, hfresh', -⟩ := run_spec hg hfresh fs declaredInputs t
  have havoid' : ∀ source ∈ g.store.inputs t, source.path ∉
      {path | ∃ p, (g.plan fs declaredInputs t).result = .ok p ∧ path ∈ p.outputs} := by
    rintro source hsource ⟨p, hp, hpath⟩
    obtain rfl := Except.ok.inj ((run_emits h).1.symm.trans hp)
    exact havoid source hsource hpath
  have hmatch := plan_alike hg hfresh hfresh' hgrown havoid' (by rw [hincluded]; exact hface)
      hgrows htree
    steady_declaredInputs hanchored
  rw [hincluded] at hmatch
  rcases hmatch with ⟨fault, ⟨text, rfl, htangled⟩, hfault⟩ | hmatch
  · exact .inl ⟨text, hfault, htangled⟩
  · exact .inr (hmatch.equal (knownAlike_of_run hg hfresh h hstep))

/-- When a run returns, the next run returns the same and leaves everything as the first one left
it, unless it comes to a loop of links at a path that led to a link before. The files that the run
generates are not to be inputs of the target, and the target is not to name its own step. -/
theorem rerun_of_run (hg : g.WellFormed) (hfresh : g.Fresh) (htree : fs.IsTree)
    (hanchored : g.Anchored fs t) (h : (g.run fs declaredInputs t).result = .ok r)
    (havoid : ∀ source ∈ g.store.inputs t, source.path ∉ r.plan.outputs)
    (hstep : (g.target t).autogenName ∉ (g.target t).properties.autogenTargetDepends) :
    let first := g.run fs declaredInputs t
    let second := first.graph.run first.files declaredInputs t
    (∃ text, second.result = .error (.plan (.path (.linkLoop text))) ∧ fs.Tangled text) ∨
      second.result = .ok r ∧ second.files = first.files ∧
      second.graph.bare = first.graph.bare := by
  intro first second
  have hfiles : fs.Grows first.files := run_files_grows htree g declaredInputs t
  rcases plan_after_run hg hfresh h havoid hstep hfiles htree hanchored with
    ⟨text, hfault, htangled⟩ | ⟨hresult, hsaid⟩
  · exact .inl ⟨text, result_of_fault hfault, htangled⟩
  · exact .inr (run_of_carriedOut hg hfresh htree h (hresult.trans (run_emits h).1) hsaid)

/-! ## Loops of links -/

/-- In a tree without links nothing is tangled. -/
theorem not_tangled_of_entries {entries : List (Location × Node)}
    (h : ∀ entry ∈ entries, ∀ target, entry.2 ≠ .link target) (text : String) :
    ¬(⟨OrderedMap.ofList entries⟩ : FileSystem).Tangled text :=
  (linkless_of_entries h).not_tangled text

/-- Before the descriptor of a run is written the directories above it are made. -/
theorem grows_run_files (htree : fs.IsTree) (h : (g.run fs lister t).result = .ok r) :
    (fs.makeDirectories r.descriptor.parent).1.Grows (g.run fs lister t).files := by
  obtain ⟨-, -, hwrite⟩ := run_eq_ok h
  obtain ⟨-, hwritten⟩ := Descriptor.write_eq_ok hwrite
  have hgrows := FileSystem.grows_write htree r.descriptor (Text.encode r.plan.render)
  rwa [hwritten] at hgrows

end Graph

end

namespace Graph

attribute [local instance] Environment.plain

/-- A program and a tool for which moc is enabled. The program depends on a file behind a link to
itself. -/
def loopProject : Graph where
  settings := { sourceDir := "/w/src", binaryDir := "/w/build", qtVersionMajor := some "5" }
  store := {
    sources := [{ path := "/w/src/a.h" }]
    targets := [
      { name := "a"
        sourceDir := "/w/src"
        binaryDir := "/w/build"
        properties := { automoc := true, autogenTargetDepends := ["/w/self/../b"] }
        sources := [0] },
      { name := "b"
        sourceDir := "/w/src"
        binaryDir := "/w/build"
        properties := { automoc := true } }] }
  targets := OrderedMap.ofList [("a", 0), ("b", 1)]
  importedTargets := OrderedMap.ofList [("Qt5::moc", ⟨"Qt5::moc", "/opt/moc"⟩)]

/-- A tree in which the file that the program depends on is a link through a directory that is made
when a descriptor is written, and from there on to a link to itself. -/
def loopTree : FileSystem :=
  ⟨OrderedMap.ofList [(["w"], .directory), (["w", "self"], .link "self"),
    (["w", "b"], .link "/w/build/CMakeFiles/../c"), (["w", "build"], .directory),
    (["w", "build", "c"], .link "c")]⟩

theorem wellFormed_loopProject : loopProject.WellFormed :=
  wellFormed_of_unlinked (by decide) (by decide) rfl

theorem fresh_loopProject : loopProject.Fresh :=
  fresh_of_unremembered (by decide)

theorem names_loopProject : ∀ config ∈ loopProject.settings.configurations,
    ∀ c ∈ config.toList, Descriptor.isKeyChar c := by
  intro config hconfig
  cases hconfig

theorem isTree_loopTree : loopTree.IsTree :=
  isTree_of_entries (by decide)

theorem anchored_loopProject (fs : FileSystem) : loopProject.Anchored fs 0 where
  sourceDir := .inl (by decide)
  inputs source hsource := by
    have hpath : ∀ source ∈ loopProject.store.inputs 0,
        (Path.ofString source.path).isAbsolute = true := by
      decide
    exact .inl (hpath source hsource)

/-- The program and the tool can be planned and run in the tree. Once the directory of the
descriptor of either is made, the program cannot be planned any more. -/
theorem run_loopProject {t : TargetId} (ht : t ∈ [0, 1]) :
    ∃ r, (loopProject.run loopTree declaredInputs t).result = .ok r ∧
      (∀ source ∈ loopProject.store.inputs 0, source.path ∉ r.plan.outputs) ∧
      (loopProject.plan (loopTree.makeDirectories r.descriptor.parent).1 declaredInputs 0).result =
        .error (.path (.linkLoop "/w/b")) := by
  have hplans : ∀ t ∈ [0, 1], (loopProject.plan loopTree declaredInputs t).result.toOption.isSome ∧
      ∀ p ∈ (loopProject.plan loopTree declaredInputs t).result.toOption,
        loopProject.Achievable loopTree p ∧
        (∀ source ∈ loopProject.store.inputs 0, source.path ∉ p.generatedFiles.map (·.path)) ∧
        (loopProject.plan (loopTree.makeDirectories (Path.ofString p.infoFile).parent).1
          declaredInputs 0).result = .error (.path (.linkLoop "/w/b")) := by
    decide +kernel
  obtain ⟨hplanned, hp⟩ := hplans t ht
  cases hplan : (loopProject.plan loopTree declaredInputs t).result with
  | error fault =>
    rw [hplan] at hplanned
    cases hplanned
  | ok p =>
    rw [hplan] at hp
    obtain ⟨hachievable, houtputs, hloop⟩ := hp p rfl
    obtain ⟨r, hr, rfl⟩ := run_of_achievable wellFormed_loopProject fresh_loopProject
      (names_of_declared names_loopProject) (by decide) hplan hachievable
    exact ⟨r, hr, houtputs, (run_eq_ok hr).2.1 ▸ hloop⟩

/-- The first run of the program makes the directory through which the second one comes to a
loop. -/
theorem rerun_loopProject :
    loopProject.Fresh ∧
    (loopProject.target 0).autogenName ∉ (loopProject.target 0).properties.autogenTargetDepends ∧
    ∃ r, (loopProject.run loopTree declaredInputs 0).result = .ok r ∧
      (∀ source ∈ loopProject.store.inputs 0, source.path ∉ r.plan.outputs) ∧
      ∃ text, ((loopProject.run loopTree declaredInputs 0).graph.run
        (loopProject.run loopTree declaredInputs 0).files declaredInputs 0).result =
          .error (.plan (.path (.linkLoop text))) := by
  have hstep : (loopProject.target 0).autogenName ∉
      (loopProject.target 0).properties.autogenTargetDepends := by
    decide
  obtain ⟨r, hr, havoid, hloop⟩ := run_loopProject (show 0 ∈ [0, 1] by decide)
  refine ⟨fresh_loopProject, hstep, r, hr, havoid, ?_⟩
  have hmade := (makeDirectories_grows isTree_loopTree r.descriptor.parent).tree isTree_loopTree
  rcases plan_after_run wellFormed_loopProject fresh_loopProject hr havoid hstep
      (grows_run_files isTree_loopTree hr) hmade (anchored_loopProject _) with
    ⟨text, hfault, -⟩ | ⟨hresult, -⟩
  · exact ⟨text, result_of_fault hfault⟩
  · exact ⟨"/w/b", result_of_fault (hresult.trans hloop)⟩

/-- The application is run twice in a tree without links. -/
theorem rerun_of_run_appProject :
    ∃ r, (appProject.run (describedTree 0o644) declaredInputs 0).result = .ok r ∧
      (∀ source ∈ appProject.store.inputs 0, source.path ∉ r.plan.outputs) ∧
      (appProject.target 0).autogenName ∉ (appProject.target 0).properties.autogenTargetDepends ∧
      let first := appProject.run (describedTree 0o644) declaredInputs 0
      let second := first.graph.run first.files declaredInputs 0
      second.result = .ok r ∧ second.files = first.files ∧
      second.graph.bare = first.graph.bare := by
  obtain ⟨r, hr, -, houtputs⟩ := run_appProject (show 0o644 ∈ [0o200, 0o644] by decide)
  have hpaths : ∀ source ∈ appProject.store.inputs 0, source.path = "/w/src/a.h" := by decide
  have havoid : ∀ source ∈ appProject.store.inputs 0, source.path ∉ r.plan.outputs := by
    intro source hsource hpath
    have hmem : source.path ∈ r.plan.generatedFiles.map (·.path) := hpath
    rw [houtputs, hpaths source hsource] at hmem
    exact absurd hmem (by decide)
  have hstep : (appProject.target 0).autogenName ∉
      (appProject.target 0).properties.autogenTargetDepends := by
    decide
  have hanchored : appProject.Anchored (describedTree 0o644) 0 := by
    refine ⟨.inl (by decide), fun source hsource => .inl ?_⟩
    rw [hpaths source hsource]
    decide
  refine ⟨r, hr, havoid, hstep, ?_⟩
  have htree : (describedTree 0o644).IsTree := isTree_of_entries (by decide)
  rcases rerun_of_run wellFormed_appProject fresh_appProject htree hanchored hr havoid hstep with
    ⟨text, -, htangled⟩ | hsame
  · exact absurd htangled (not_tangled_of_entries (by simp) text)
  · exact hsame

end Graph

end Autogen
