import Autogen.Proofs.Plan.DryRun
import Autogen.Proofs.Plan.Independence
import Autogen.Proofs.Project.Loading

/-!
# Planning the targets of a project in some order

Each run registers the step of its target, and from then on the name of the step is known to the
targets that come later. Apart from that, and from outputs that are sources of other targets, a
target is planned as if it came first: the plan is the one in the graph before all runs, with the
steps added that the target mentions and that were registered before it.

## Main definitions

* `Graph.Named` — a graph in which targets are registered under their names.
* `Graph.awaited` — the steps that a target mentions and that are known through earlier runs alone.
* `Graph.planAfter` — the plan of a target in a graph in which these steps are known.
* `Graph.settled` — what a run leaves of a graph, told without what it writes.
* `Graph.Passed` — the graphs and trees between the runs.
* `Graph.DependsAfter` — what the step of a target depends on after the targets of a project were
  run.

## Main statements

* `Graph.Passed.plan`, `Graph.Passed.run` — what a run plans and what it registers.
* `Graph.steps_of_runEach` — the steps that all runs register.
* `Graph.exists_runEach`, `Graph.exists_runEach_pair` — runs that return.
* `Graph.steps_of_orders` — orders in which the same steps are registered.
-/

namespace Autogen

open FileSystem

/-- The targets that come before a target in an order. -/
def earlier (order : List TargetId) (t : TargetId) : List TargetId :=
  order.takeWhile (· ≠ t)

@[simp] theorem earlier_cons_self (t : TargetId) (rest : List TargetId) :
    earlier (t :: rest) t = [] := by
  simp [earlier]

theorem earlier_cons_of_ne {first t : TargetId} (h : first ≠ t) (rest : List TargetId) :
    earlier (first :: rest) t = first :: earlier rest t := by
  simp [earlier, h]

/-- Passing on the first target of an order to those that come before. -/
theorem append_earlier_cons {first t : TargetId} (h : first ≠ t) (before rest : List TargetId) :
    before ++ earlier (first :: rest) t = before ++ [first] ++ earlier rest t := by
  rw [earlier_cons_of_ne h, List.append_assoc, List.singleton_append]

theorem mem_of_mem_earlier {order : List TargetId} {t u : TargetId} (h : u ∈ earlier order t) :
    u ∈ order :=
  List.takeWhile_subset _ h

theorem ne_of_mem_earlier {order : List TargetId} {t u : TargetId} (h : u ∈ earlier order t) :
    u ≠ t := by
  simpa using List.all_eq_true.mp (List.all_takeWhile (p := (· ≠ t)) (l := order)) u h

theorem contains_foldl_insert {κ α : Type} [DecidableEq κ] (value : κ → α) (names : List κ)
    (m : OrderedMap κ α) (name : κ) :
    (names.foldl (fun m name => m.insert name (value name)) m).contains name =
      (m.contains name || names.contains name) := by
  induction names generalizing m with
  | nil => simp
  | cons first rest ih =>
    rw [List.foldl_cons, ih, OrderedMap.contains, OrderedMap.get?_insert]
    by_cases heq : name = first
    · simp [heq]
    · simp [heq, OrderedMap.contains]

theorem name_of_autogenName {x y : Target} (h : x.autogenName = y.autogenName) :
    x.name = y.name := by
  unfold Target.autogenName at h
  simpa using h

namespace Graph

variable {g s : Graph} {t u : TargetId} {fs files : FileSystem} {lister : ResourceLister}
  {r : RunResult}
  {before todo order : List TargetId} {results : List RunResult}

/-! ## Registered names -/

/-- Every target is registered under its name. -/
def Named (g : Graph) : Prop :=
  ∀ name t, g.targets.get? name = some t → (g.target t).name = name

theorem Loaded.named (h : g.Loaded) : g.Named :=
  fun name t ht => (h.registered name t ht).2

/-- Paths of the graph of a project description are absolute, so nothing is needed to take them
from. -/
theorem Loaded.anchored [Environment] (h : g.Loaded) (fs : FileSystem) (ht : t ∈ g.targetIds) :
    g.Anchored fs t := by
  obtain ⟨⟨name, t⟩, hpair, rfl⟩ := List.mem_map.mp ht
  obtain ⟨hlt, -⟩ := h.registered name t (OrderedMap.get?_eq_some.mpr hpair)
  refine ⟨.inl (h.sourceDir t hlt), fun source hsource => .inl (h.paths source ?_)⟩
  obtain ⟨id, hid, rfl⟩ := List.mem_map.mp (List.mem_filter.mp hsource).1
  rw [Store.source, List.getD_eq_getElem _ _ (h.linked.source_lt t id hid)]
  exact List.getElem_mem _

theorem Named.keys (h : g.Named) :
    g.targetIds.map (fun t => (g.target t).name) = g.targets.keys := by
  rw [targetIds, OrderedMap.values, OrderedMap.keys, List.map_map]
  refine List.map_congr_left fun pair hpair => h pair.1 pair.2 ?_
  exact OrderedMap.get?_eq_some.mpr hpair

/-- Targets for which a generator is enabled are listed once and have steps of their own. -/
theorem Named.nodup_steps (h : g.Named) :
    (g.candidates.map fun t => (g.target t).autogenName).Nodup := by
  have hnames : (g.targetIds.map fun t => (g.target t).name).Nodup := h.keys ▸ g.targets.nodup_keys
  have hsteps : (g.targetIds.map fun t => (g.target t).autogenName).Nodup :=
    (List.nodup_map_iff_inj_on hnames.of_map).mpr fun x hx y hy heq =>
      List.inj_on_of_nodup_map hnames hx hy (name_of_autogenName heq)
  exact hsteps.sublist (List.filter_sublist.map _)

/-! ## Steps that are known -/

/-- The graph in which some more steps are known. -/
def withKnown (g : Graph) (names : List String) : Graph :=
  { g with
    utilitySteps :=
      names.foldl (fun steps name => steps.insert name { name, workingDirectory := "" })
        g.utilitySteps }

theorem contains_withKnown (g : Graph) (names : List String) (name : String) :
    (g.withKnown names).utilitySteps.contains name =
      (g.utilitySteps.contains name || names.contains name) :=
  contains_foldl_insert (fun name => ({ name, workingDirectory := "" } : UtilityStep))
    names g.utilitySteps name

theorem isKnown_withKnown (g : Graph) (names : List String) (name : String) :
    (g.withKnown names).isKnown name = (g.isKnown name || names.contains name) := by
  have htaken : (g.withKnown names).isTaken name = g.isTaken name := rfl
  rw [isKnown, isKnown, htaken, contains_withKnown, Bool.or_assoc]

/-- The steps that a target mentions and that are known since targets before it were run, and not
before that. -/
def awaited (g : Graph) (before : List TargetId) (t : TargetId) : List String :=
  (g.target t).mentioned.filter fun name =>
    !g.isKnown name && (before.map fun u => (g.target u).autogenName).contains name

theorem awaited_congr {before' : List TargetId}
    (h : ∀ u, (g.target u).autogenName ∈ (g.target t).mentioned →
      g.isKnown (g.target u).autogenName = false → (u ∈ before ↔ u ∈ before')) :
    g.awaited before t = g.awaited before' t := by
  refine List.filter_congr fun name hname => ?_
  cases hknown : g.isKnown name with
  | true => rfl
  | false =>
    have hlisted : name ∈ before.map (fun u => (g.target u).autogenName) ↔
        name ∈ before'.map fun u => (g.target u).autogenName := by
      simp only [List.mem_map]
      refine exists_congr fun u => and_congr_left ?_
      rintro rfl
      exact h u hname hknown
    simpa using hlisted

/-- The plan of a target in a graph in which the steps of the targets before it are known as far as
it mentions them. -/
def planAfter [Environment] (g : Graph) (fs : FileSystem) (lister : ResourceLister)
    (before : List TargetId) (t : TargetId) : PlanOutcome :=
  (g.withKnown (g.awaited before t)).plan fs lister t

/-- Steps of targets that were run before are known to a target that mentions them. -/
theorem isKnown_of_awaited (hname : (g.target u).autogenName ∈ (g.target t).mentioned)
    (hu : u ∈ before) :
    (g.withKnown (g.awaited before t)).isKnown (g.target u).autogenName = true := by
  rw [isKnown_withKnown]
  cases hknown : g.isKnown (g.target u).autogenName with
  | true => rfl
  | false =>
    have hlisted : (g.target u).autogenName ∈ before.map fun u => (g.target u).autogenName :=
      List.mem_map_of_mem hu
    rw [Bool.false_or, List.contains_iff_mem, awaited]
    exact List.mem_filter.mpr ⟨hname, by simpa [hknown] using hlisted⟩

/-- A plan depends on the names that the target mentions and that are known, its own step apart. -/
theorem mem_dependencies_of_plan [Environment] {p : Plan} (hg : g.WellFormed) (hfresh : g.Fresh)
    (h : (g.plan fs lister t).result = .ok p) {name : String}
    (hname : name ∈ (g.target t).mentioned) (hknown : g.isKnown name = true)
    (hother : name ≠ (g.target t).autogenName) : name ∈ p.dependencies := by
  have hpart {α : Type} (part : Target → α)
      (hpart : ∀ x dirs, part { x with includeDirectories := dirs } = part x) :
      part ((g.included t).target t) = part (g.target t) :=
    part_included part hpart t
  have hincluded : g.Grows {t} ∅ (g.included t) := included_grows g t
  rw [plan_of_enabled fs lister (enabled_of_plan h)] at h
  obtain ⟨store, noted, f, -, -, hcollected, rfl, -, -⟩ :=
    exists_findings (hg.grows hincluded) (fresh_included hg hfresh) h
  rw [← hpart Target.mentioned fun _ _ => rfl, Target.mentioned, List.append_assoc] at hname
  rw [← hpart Target.autogenName fun _ _ => rfl] at hother
  have hkept : [((g.included t).target t).autogenName].contains name = false := by
    simpa using hother
  exact DependencyRequest.mem_depends_collect hcollected hknown
    ((List.mem_append.mp hname).imp_right fun hlinked => ⟨hlinked, hkept⟩)

theorem planAfter_congr [Environment] {before' : List TargetId}
    (h : ∀ u, (g.target u).autogenName ∈ (g.target t).mentioned →
      g.isKnown (g.target u).autogenName = false → (u ∈ before ↔ u ∈ before')) :
    g.planAfter fs lister before t = g.planAfter fs lister before' t := by
  rw [planAfter, awaited_congr h, planAfter]

/-- A plan that is made after other targets depends on the steps of those that the target
mentions. -/
theorem mem_dependencies_of_planAfter [Environment] {p : Plan}
    (hg : g.WellFormed) (hfresh : g.Fresh) (h : (g.planAfter fs lister before t).result = .ok p)
    (hu : u ∈ before) (hname : (g.target u).autogenName ∈ (g.target t).mentioned)
    (hother : (g.target u).autogenName ≠ (g.target t).autogenName) :
    (g.target u).autogenName ∈ p.dependencies := by
  have hwell : (g.withKnown (g.awaited before t)).WellFormed := ⟨hg.linked, hg.index⟩
  exact mem_dependencies_of_plan hwell hfresh h hname (isKnown_of_awaited hname hu) hother

/-! ## Runs -/

/-- What a run registers. -/
theorem utilitySteps_of_run [Environment] (hg : g.WellFormed) (hfresh : g.Fresh)
    (h : (g.run fs lister t).result = .ok r) :
    (g.run fs lister t).graph.utilitySteps =
      g.utilitySteps.insert (g.target t).autogenName (g.generationStep (g.target t) r.plan) := by
  obtain ⟨hplan, hdone, heq⟩ := run_emits h
  obtain ⟨-, hname⟩ := plan_eq_ok hplan
  obtain ⟨e, hfiles, -, -, -, hemit⟩ := emit_eq_ok hdone
  have hplanned := plan_grows hg hfresh fs lister t
  obtain ⟨files, hnoted⟩ := (plan_notesOnly hg hfresh fs lister (enabled_of_plan hplan)).graph
  have hsteps : (g.plan fs lister t).graph.utilitySteps = g.utilitySteps := by rw [hnoted]
  have hprepared : (g.plan fs lister t).graph.Grows {t} r.plan.outputs
      ((g.plan fs lister t).graph.prepared t r.plan (g.plan fs lister t).diagnostics).graph :=
    prepared_grows _ t r.plan _
  obtain ⟨hregistered, -, -⟩ := registerFiles_spec ((hg.grows hplanned).grows hprepared)
    t r.plan.generatedFiles
  obtain ⟨hkeeps, -⟩ := registerFiles_grouped (congrArg Prod.snd hfiles)
  rw [hfiles] at hkeeps hregistered
  have hkept : e.graph.utilitySteps = g.utilitySteps := hkeeps.utilitySteps.trans hsteps
  have hstep : e.graph.generationStep (e.graph.target t) r.plan =
      g.generationStep (g.target t) r.plan :=
    (generationStep_grows (hprepared.trans hregistered) r.plan).trans
      (generationStep_grows hplanned r.plan)
  rw [heq, hemit]
  simp only [withStep, modifyTarget, hkept, hstep, hname]

/-- What carrying out the plan of a target leaves of a graph, whatever comes of the descriptor. -/
def settled [Environment] (g : Graph) (fs : FileSystem) (lister : ResourceLister) (t : TargetId)
    (p : Plan) : Graph :=
  let planned := g.plan fs lister t
  (registerFiles t (planned.graph.prepared t p planned.diagnostics)
    p.generatedFiles).1.graph.withStep t p

theorem graph_of_run [Environment] (h : (g.run fs lister t).result = .ok r) :
    (g.run fs lister t).graph = g.settled fs lister t r.plan := by
  obtain ⟨-, hdone, heq⟩ := run_emits h
  obtain ⟨e, hfiles, -, -, -, hemit⟩ := emit_eq_ok hdone
  rw [heq, hemit, settled, hfiles]

/-- The graphs and trees between the runs of some targets: those before have been run, and no output
is a source of one that is still to be run. -/
structure Passed (g : Graph) (fs : FileSystem) (before todo : List TargetId) (s : Graph)
    (files : FileSystem) :
    Prop where
  nodup : (before ++ todo).Nodup
  graph : g.Grows {u | u ∈ before}
    {path | ∀ t ∈ todo, ∀ source ∈ g.store.inputs t, source.path ≠ path} s
  fresh : s.Fresh
  tree : fs.Grows files
  steps : ∀ u ∈ before, s.utilitySteps.contains (g.target u).autogenName = true

theorem Passed.refl (hfresh : g.Fresh) (fs : FileSystem) (hnodup : todo.Nodup) :
    g.Passed fs [] todo g fs :=
  ⟨hnodup, .refl g, hfresh, .refl fs, by simp⟩

theorem Passed.not_mem (h : g.Passed fs before todo s files) (ht : t ∈ todo) : t ∉ before :=
  fun hbefore => List.disjoint_of_nodup_append h.nodup hbefore ht

theorem Passed.ne {first : TargetId} {rest : List TargetId}
    (h : g.Passed fs before (first :: rest) s files) :
    ∀ t ∈ rest, first ≠ t := by
  rintro t ht rfl
  exact (List.nodup_cons.mp h.nodup.of_append_right).1 ht

/-- Steps are those that there were at first and those of the targets that were run. -/
theorem Passed.contains (h : g.Passed fs before todo s files) (name : String) :
    s.utilitySteps.contains name =
      (g.utilitySteps.contains name ||
        (before.map fun u => (g.target u).autogenName).contains name) := by
  refine Bool.eq_iff_iff.mpr ?_
  rw [Bool.or_eq_true, List.contains_iff_mem, List.mem_map]
  constructor
  · intro hstep
    refine (h.graph.newSteps name hstep).imp_right ?_
    rintro ⟨u, hu, rfl⟩
    exact ⟨u, hu, rfl⟩
  · rintro (hold | ⟨u, hu, rfl⟩)
    · exact h.graph.steps name hold
    · exact h.steps u hu

/-- Names that a target mentions are known between the runs if they are known once the steps are
that the target awaits. -/
theorem Passed.isKnown (h : g.Passed fs before todo s files) {name : String}
    (hname : name ∈ (g.target t).mentioned) :
    s.isKnown name = (g.withKnown (g.awaited before t)).isKnown name := by
  have htaken : s.isTaken name = g.isTaken name := by
    rw [isTaken, isTaken, h.graph.targets, h.graph.importedTargets]
  have hawaited : (g.awaited before t).contains name =
      (!g.isKnown name && (before.map fun u => (g.target u).autogenName).contains name) := by
    simp [awaited, hname]
  rw [isKnown_withKnown, hawaited, Graph.isKnown, Graph.isKnown, htaken, h.contains]
  cases g.isTaken name <;> cases g.utilitySteps.contains name <;> simp

/-- Between the runs the graph has grown from the one in which the steps are known that a target
awaits. -/
theorem Passed.withKnown (h : g.Passed fs before todo s files) (t : TargetId) :
    (g.withKnown (g.awaited before t)).Grows {u | u ∈ before}
      {path | ∀ t ∈ todo, ∀ source ∈ g.store.inputs t, source.path ≠ path} s := by
  refine ⟨h.graph.store, h.graph.settings, h.graph.targets, h.graph.importedTargets, h.graph.index,
    h.graph.indexed, fun name hold => ?_, fun name hstep => ?_⟩
  · rw [contains_withKnown, Bool.or_eq_true, List.contains_iff_mem] at hold
    rw [h.contains, Bool.or_eq_true]
    refine hold.imp_right fun hawaited => ?_
    exact (Bool.and_eq_true_iff.mp (List.mem_filter.mp hawaited).2).2
  · rw [contains_withKnown, Bool.or_eq_true]
    exact (h.graph.newSteps name hstep).imp_left .inl

/-- A run leads on to the targets after it. -/
theorem Passed.run [Environment] (hg : g.WellFormed) (htree : fs.IsTree) {rest : List TargetId}
    (h : g.Passed fs before (t :: rest) s files) (hr : (s.run files lister t).result = .ok r)
    (havoid : ∀ u ∈ rest, ∀ source ∈ g.store.inputs u, source.path ∉ r.plan.outputs) :
    g.Passed fs (before ++ [t]) rest (s.run files lister t).graph (s.run files lister t).files := by
  have hs := hg.grows h.graph
  obtain ⟨hgrown, hfresh, -⟩ := run_spec hs h.fresh files lister t
  have hname : (s.target t).autogenName = (g.target t).autogenName :=
    h.graph.part Target.autogenName (fun _ => rfl) t
  refine ⟨?_, ?_, hfresh, h.tree.trans (run_files_grows (h.tree.tree htree) s lister t),
    fun u hu => ?_⟩
  · rw [List.append_assoc]
    exact h.nodup
  · refine (h.graph.mono (fun u hu => List.mem_append_left _ hu) fun path hpath u hu =>
      hpath u (List.mem_cons_of_mem _ hu)).trans (hgrown.mono ?_ ?_)
    · rintro u rfl
      exact List.mem_append_right _ List.mem_cons_self
    · rintro path ⟨p, hp, hpath⟩ u hu source hsource rfl
      obtain rfl := Except.ok.inj ((run_emits hr).1.symm.trans hp)
      exact havoid u hu source hsource hpath
  -- Its own step is known from now on, and the steps of the targets before it stay known.
  · rw [utilitySteps_of_run hs h.fresh hr, OrderedMap.contains, OrderedMap.get?_insert, hname]
    split
    · rfl
    · rename_i hne
      rcases List.mem_append.mp hu with hold | hlast
      · exact h.steps u hold
      · rw [List.mem_singleton.mp hlast] at hne
        exact absurd rfl hne

theorem runEach_cons [Environment] {rest : List TargetId}
    (hr : (g.run fs lister t).result = .ok r) :
    runEach lister (t :: rest) g fs =
      let after := runEach lister rest (g.run fs lister t).graph (g.run fs lister t).files
      (after.1, after.2.1, after.2.2.map (r :: ·)) := by
  rw [runEach]
  generalize g.run fs lister t = out at hr ⊢
  obtain ⟨g', fs', result⟩ := out
  subst hr
  simp only
  rcases runEach lister rest g' fs' with ⟨g'', fs'', fault | others⟩ <;> rfl

/-- Where all runs return, the first one does, and the others do after it. -/
theorem runEach_cons_eq_ok [Environment] {rest : List TargetId}
    (h : (runEach lister (t :: rest) g fs).2.2 = .ok results) :
    ∃ r others, (g.run fs lister t).result = .ok r ∧ results = r :: others ∧
      let after := runEach lister rest (g.run fs lister t).graph (g.run fs lister t).files
      after.2.2 = .ok others ∧ (runEach lister (t :: rest) g fs).1 = after.1 := by
  cases hr : (g.run fs lister t).result with
  | error fault =>
    rw [runEach] at h
    generalize g.run fs lister t = out at h hr
    obtain ⟨g', fs', result⟩ := out
    subst hr
    cases h
  | ok r =>
    rw [runEach_cons hr] at h ⊢
    generalize runEach lister rest (g.run fs lister t).graph (g.run fs lister t).files =
      after at h ⊢
    obtain ⟨g', fs', fault | others⟩ := after
    · cases h
    · exact ⟨r, others, rfl, (Except.ok.inj h).symm, rfl, rfl⟩

section Runs

variable [Environment] (hg : g.WellFormed) (hfresh : g.Fresh) (htree : fs.IsTree)
  (hlister : ResourceLister.Steady lister)
include hg hfresh htree hlister

/-- Between the runs a target has the plan that it has in the first graph, once the steps are known
that it awaits, unless planning comes to a loop of links. -/
theorem Passed.plan (h : g.Passed fs before todo s files) (hanchored : g.Anchored fs t)
    (ht : t ∈ todo) :
    (∃ text, (s.plan files lister t).result = .error (.path (.linkLoop text)) ∧ fs.Tangled text) ∨
      (s.plan files lister t).result = (g.planAfter fs lister before t).result := by
  have hgrows := h.withKnown t
  have hnew := h.not_mem ht
  have hundisturbed :
      Undisturbed {u | u ∈ before} t (g.withKnown (g.awaited before t)) fs s files :=
    ⟨hgrows.mono subset_rfl fun path hpath => hpath t ht, h.fresh, h.tree⟩
  rcases hundisturbed.plan ⟨hg.linked, hg.index⟩ hfresh htree
    ⟨hanchored.sourceDir, hanchored.inputs⟩
    hlister hnew with ⟨fault, ⟨text, rfl, htangled⟩, hfault⟩ | hmatch
  · exact .inl ⟨text, hfault, htangled⟩
  · exact .inr (hmatch.equal
      (knownAlike_of_mentioned hgrows hnew fun name hname => h.isKnown hname)).1

theorem Passed.plan_of_run (h : g.Passed fs before todo s files) (hanchored : g.Anchored fs t)
    (ht : t ∈ todo) (hr : (s.run files lister t).result = .ok r) :
    (g.planAfter fs lister before t).result = .ok r.plan := by
  have hplan := (run_emits hr).1
  rcases h.plan hg hfresh htree hlister hanchored ht with ⟨text, hfault, -⟩ | hsame
  · rw [hplan] at hfault
    cases hfault
  · exact hsame.symm.trans hplan

/-- What remains of the runs of some targets: the step that each one plans as if it came first, once
the steps are known that it awaits, and everything that was there before under another name. -/
theorem steps_of_runEach (h : g.Passed fs before todo s files)
    (hanchored : ∀ t ∈ todo, g.Anchored fs t)
    (hnodup : (todo.map fun t => (g.target t).autogenName).Nodup)
    (hrun : (runEach lister todo s files).2.2 = .ok results)
    (havoid : ∀ t ∈ todo, ∀ r ∈ results,
      (g.planAfter fs lister (before ++ earlier todo t) t).result = .ok r.plan →
        ∀ u ∈ todo, u ≠ t → ∀ source ∈ g.store.inputs u, source.path ∉ r.plan.outputs) :
    (∀ t ∈ todo, ∃ r ∈ results,
      (g.planAfter fs lister (before ++ earlier todo t) t).result = .ok r.plan ∧
      (runEach lister todo s files).1.utilitySteps.get? (g.target t).autogenName =
        some (g.generationStep (g.target t) r.plan)) ∧
    ∀ name, name ∉ todo.map (fun t => (g.target t).autogenName) →
      (runEach lister todo s files).1.utilitySteps.get? name = s.utilitySteps.get? name := by
  -- The induction is on the targets that are left; `Passed` tells what the runs before them have
  -- done.
  induction todo generalizing before s files results with
  | nil => exact ⟨by simp, fun name _ => rfl⟩
  | cons first rest ih =>
    obtain ⟨r, others, hr, rfl, hrest, hfinal⟩ := runEach_cons_eq_ok hrun
    obtain ⟨hfirstStep, hrestSteps⟩ := List.nodup_cons.mp hnodup
    have hfirst := h.plan_of_run hg hfresh htree hlister (hanchored first List.mem_cons_self)
      List.mem_cons_self hr
    have hpassed := h.run hg htree hr fun u hu =>
        havoid first List.mem_cons_self r List.mem_cons_self
      (by simpa using hfirst) u (List.mem_cons_of_mem _ hu) (h.ne u hu).symm
    obtain ⟨hplanned, hkept⟩ := ih hpassed (fun t ht => hanchored t (List.mem_cons_of_mem _ ht))
      hrestSteps hrest
      fun t ht other hother hplan u hu => havoid t (List.mem_cons_of_mem _ ht) other
        (List.mem_cons_of_mem _ hother) (append_earlier_cons (h.ne t ht) before rest ▸ hplan) u
        (List.mem_cons_of_mem _ hu)
    -- Later runs register steps of other names, so the step of this one stays as it is.
    have hstep := utilitySteps_of_run (hg.grows h.graph) h.fresh hr
    have hname : (s.target first).autogenName = (g.target first).autogenName :=
      h.graph.part Target.autogenName (fun _ => rfl) first
    rw [generationStep_grows h.graph, hname] at hstep
    rw [hfinal]
    refine ⟨fun t ht => ?_, fun name hname => ?_⟩
    · rcases List.mem_cons.mp ht with rfl | ht
      · refine ⟨r, List.mem_cons_self, by simpa using hfirst, ?_⟩
        rw [hkept _ hfirstStep, hstep, OrderedMap.get?_insert, if_pos rfl]
      · obtain ⟨other, hother, hplan, hget⟩ := hplanned t ht
        rw [append_earlier_cons (h.ne t ht)]
        exact ⟨other, List.mem_cons_of_mem _ hother, hplan, hget⟩
    · obtain ⟨hfirstName, hrestNames⟩ := not_or.mp (List.mem_cons.not.mp hname)
      rw [hkept name hrestNames, hstep, OrderedMap.get?_insert, if_neg hfirstName]

/-- The runs of all targets for which a generator is enabled, from the first one on. -/
theorem steps_of_candidates (hnamed : g.Named) (hanchored : ∀ t ∈ g.candidates, g.Anchored fs t)
    (horder : order.Perm g.candidates) (hrun : (runEach lister order g fs).2.2 = .ok results)
    (havoid : ∀ t ∈ order, ∀ r ∈ results,
      (g.planAfter fs lister (earlier order t) t).result = .ok r.plan →
      ∀ u ∈ order, u ≠ t → ∀ source ∈ g.store.inputs u, source.path ∉ r.plan.outputs) :
    (∀ t ∈ g.candidates, ∃ r ∈ results,
      (g.planAfter fs lister (earlier order t) t).result = .ok r.plan ∧
      (runEach lister order g fs).1.utilitySteps.get? (g.target t).autogenName =
        some (g.generationStep (g.target t) r.plan)) ∧
    ∀ name, name ∉ g.candidates.map (fun t => (g.target t).autogenName) →
      (runEach lister order g fs).1.utilitySteps.get? name = g.utilitySteps.get? name := by
  have hsteps := (horder.map fun t => (g.target t).autogenName).nodup_iff.mpr hnamed.nodup_steps
  obtain ⟨hplanned, hkept⟩ :=
    steps_of_runEach hg hfresh htree hlister (.refl hfresh fs hsteps.of_map)
    (fun t ht => hanchored t (horder.mem_iff.mp ht)) hsteps hrun havoid
  refine ⟨fun t ht => hplanned t (horder.mem_iff.mpr ht), fun name hname => hkept name ?_⟩
  rwa [(horder.map fun t => (g.target t).autogenName).mem_iff]

end Runs

/-! ## Runs that return -/

/-- A plan that nothing keeps from being carried out even when the tree has grown. -/
theorem Achievable.grows [Environment] {p : Plan} {fs' : FileSystem} (h : g.Achievable fs p)
    (hfile : fs.HasFile (Path.ofString p.infoFile)) (hgrows : fs.Grows fs') : g.Achievable fs' p :=
  ⟨h.free, (hfile.grows hgrows).write _, h.values, h.families⟩

/-- A plan is the same in a tree that has grown if there are no loops of links. -/
theorem plan_of_grown [Environment] (hg : g.WellFormed) (hfresh : g.Fresh) (htree : fs.IsTree)
    (huntangled : ∀ text, ¬fs.Tangled text) (hlister : ResourceLister.Steady lister)
    (hanchored : g.Anchored fs t) (hgrows : fs.Grows files) :
    (g.plan files lister t).result = (g.plan fs lister t).result := by
  have hundisturbed : Undisturbed ∅ t g fs g files := ⟨.refl g, hfresh, hgrows⟩
  rcases hundisturbed.plan hg hfresh htree hanchored hlister (Set.notMem_empty t) with
    ⟨fault, ⟨text, -, htangled⟩, -⟩ | hmatch
  · exact absurd htangled (huntangled text)
  · exact (hmatch.equal ⟨fun _ _ => rfl, fun _ _ => rfl⟩).1

section Returning

variable [Environment] (hg : g.WellFormed) (hfresh : g.Fresh) (htree : fs.IsTree)
  (huntangled : ∀ text, ¬fs.Tangled text)
  (hconfigs : ∀ config ∈ g.configurations, ∀ c ∈ config.toList, Descriptor.isKeyChar c)
  (hdelimiter : g.settings.sourceGroupDelimiter ≠ "") (hlister : ResourceLister.Steady lister)
include hg hfresh htree huntangled hconfigs hdelimiter hlister

/-- A run returns in a tree that has grown if the plan that was made before can be carried out and
there are no loops of links. -/
theorem exists_run_of_grown (hanchored : g.Anchored fs t) (hgrows : fs.Grows files) {p : Plan}
    (hplan : (g.plan fs lister t).result = .ok p) (hachievable : g.Achievable fs p)
    (hfile : fs.HasFile (Path.ofString p.infoFile)) :
    ∃ r, (g.run files lister t).result = .ok r ∧ r.plan = p := by
  have hlater := (plan_of_grown hg hfresh htree huntangled hlister hanchored hgrows).trans hplan
  exact run_of_achievable hg hfresh hconfigs hdelimiter hlater (hachievable.grows hfile hgrows)

/-- Two runs return if the plans can be carried out that are made without a descriptor of the first
one, and they register the steps of these plans. -/
theorem exists_runEach_pair (hheld : fs.find? Path.workingDirectory.parts = some .directory)
    {p q : Plan} (hp : (g.plan fs lister t).result = .ok p) (hachievable : g.Achievable fs p)
    (hq : ((g.settled fs lister t p).plan fs lister u).result = .ok q)
    (hachievable' : (g.settled fs lister t p).Achievable fs q)
    (hfile : fs.HasFile (Path.ofString q.infoFile)) :
    ∃ results, (runEach lister [t, u] g fs).2.2 = .ok results ∧
      (runEach lister [t, u] g fs).1.utilitySteps =
        (g.utilitySteps.insert (g.target t).autogenName (g.generationStep (g.target t) p)).insert
          (g.target u).autogenName (g.generationStep (g.target u) q) := by
  obtain ⟨r, hr, rfl⟩ := run_of_achievable hg hfresh hconfigs hdelimiter hp hachievable
  obtain ⟨hgrown, hfresh', -⟩ := run_spec hg hfresh fs lister t
  have hfirst := utilitySteps_of_run hg hfresh hr
  rw [← graph_of_run hr] at hq hachievable'
  have hwell := hg.grows hgrown
  have hsettings := hgrown.settings
  obtain ⟨r', hr', rfl⟩ := exists_run_of_grown hwell hfresh' htree huntangled
    (by rw [configurations, hsettings]; exact hconfigs) (hsettings ▸ hdelimiter) hlister
    ⟨.inr hheld, fun _ _ => .inr hheld⟩ (run_files_grows htree g lister t) hq hachievable' hfile
  have hsecond := utilitySteps_of_run hwell hfresh' hr'
  have hname : ((g.run fs lister t).graph.target u).autogenName = (g.target u).autogenName :=
    hgrown.part Target.autogenName (fun _ => rfl) u
  rw [generationStep_grows hgrown, hname, hfirst] at hsecond
  refine ⟨[r, r'], ?_, ?_⟩
  · rw [runEach_cons hr, runEach_cons hr']
    rfl
  · rw [runEach_cons hr, runEach_cons hr']
    exact hsecond

/-- Runs of some targets return if the plans that they come down to can be carried out and there are
no loops of links. -/
theorem exists_runEach (hanchored : ∀ t ∈ todo, g.Anchored fs t)
    (h : g.Passed fs before todo s files)
    (hplans : ∀ t ∈ todo, ∃ p, (g.planAfter fs lister (before ++ earlier todo t) t).result = .ok p ∧
      g.Achievable fs p ∧ fs.HasFile (Path.ofString p.infoFile) ∧
      ∀ u ∈ todo, u ≠ t → ∀ source ∈ g.store.inputs u, source.path ∉ p.outputs) :
    ∃ results, (runEach lister todo s files).2.2 = .ok results ∧ ∀ r ∈ results, ∃ t ∈ todo,
      (g.planAfter fs lister (before ++ earlier todo t) t).result = .ok r.plan := by
  induction todo generalizing before s files with
  | nil => exact ⟨[], rfl, by simp⟩
  | cons first rest ih =>
    obtain ⟨p, hplan, hachievable, hfile, havoid⟩ := hplans first List.mem_cons_self
    rw [earlier_cons_self, List.append_nil] at hplan
    have hp : (s.plan files lister first).result = .ok p := by
      rcases h.plan hg hfresh htree hlister (hanchored first List.mem_cons_self)
        List.mem_cons_self with
        ⟨text, -, htangled⟩ | hsame
      · exact absurd htangled (huntangled text)
      · exact hsame.trans hplan
    -- What can be carried out in the first tree can be in the one that has grown, as no name was
    -- taken.
    have hs : s.Achievable files p := by
      obtain ⟨hfree, hwrite, hvalues, hfamilies⟩ := hachievable.grows hfile h.tree
      refine ⟨?_, hwrite, hvalues, hfamilies⟩
      rw [isTaken, h.graph.targets, h.graph.importedTargets]
      exact hfree
    have hsettings := h.graph.settings
    obtain ⟨r, hr, rfl⟩ := run_of_achievable (hg.grows h.graph) h.fresh
      (by rw [configurations, hsettings]; exact hconfigs) (hsettings ▸ hdelimiter) hp hs
    have hpassed := h.run hg htree hr fun u hu =>
        havoid u (List.mem_cons_of_mem _ hu) (h.ne u hu).symm
    obtain ⟨others, hothers, hplanned⟩ :=
      ih (fun t ht => hanchored t (List.mem_cons_of_mem _ ht)) hpassed
      fun t ht => by
        obtain ⟨q, hq, hachievable, hfile, havoid⟩ := hplans t (List.mem_cons_of_mem _ ht)
        rw [append_earlier_cons (h.ne t ht)] at hq
        exact ⟨q, hq, hachievable, hfile, fun u hu => havoid u (List.mem_cons_of_mem _ hu)⟩
    refine ⟨r :: others, ?_, fun other hother => ?_⟩
    · rw [runEach_cons hr]
      simp only [hothers]
      rfl
    · rcases List.mem_cons.mp hother with rfl | hother
      · exact ⟨first, List.mem_cons_self, by simpa using hplan⟩
      · obtain ⟨t, ht, hq⟩ := hplanned other hother
        exact ⟨t, List.mem_cons_of_mem _ ht, by rw [append_earlier_cons (h.ne t ht)]; exact hq⟩

end Returning

/-! ## Orders -/

/-- Whatever the order in which the targets are run, they register the same steps, as long as no
output is a source of another target and a target comes before another one that mentions its step,
if it does so in one of the orders. The step of the other one depends on it then. The runs of one of
the orders tell the outputs. -/
theorem steps_of_orders [Environment] (hg : g.WellFormed) (hfresh : g.Fresh)
    (hnamed : g.Named) (htree : fs.IsTree) (hanchored : ∀ t ∈ g.candidates, g.Anchored fs t)
    (hlister : ResourceLister.Steady lister) {order' : List TargetId} {results' : List RunResult}
    (horder : order.Perm g.candidates) (horder' : order'.Perm g.candidates)
    (hrun : (runEach lister order g fs).2.2 = .ok results)
    (hrun' : (runEach lister order' g fs).2.2 = .ok results')
    (havoid : ∀ r ∈ results, ∀ u ∈ g.candidates,
      (g.target u).autogenName ≠ r.plan.autogenTargetName →
      ∀ source ∈ g.store.inputs u, source.path ∉ r.plan.outputs)
    (hmentioned : ∀ t ∈ g.candidates, ∀ u ∈ g.candidates,
      (g.target u).autogenName ∈ (g.target t).mentioned →
        g.isKnown (g.target u).autogenName = false →
        (u ∈ earlier order t ↔ u ∈ earlier order' t)) :
    (∀ name, (runEach lister order g fs).1.utilitySteps.get? name =
      (runEach lister order' g fs).1.utilitySteps.get? name) ∧
    ∀ t ∈ g.candidates, ∀ u ∈ earlier order t, (g.target u).autogenName ∈ (g.target t).mentioned →
      ∃ step, (runEach lister order g fs).1.utilitySteps.get? (g.target t).autogenName = some step ∧
        (g.target u).autogenName ∈ step.depends := by
  have hspares : ∀ t ∈ g.candidates, ∀ r ∈ results,
      (g.planAfter fs lister (earlier order t) t).result = .ok r.plan →
        ∀ u ∈ g.candidates, u ≠ t → ∀ source ∈ g.store.inputs u, source.path ∉ r.plan.outputs := by
    intro t ht r hr hplan u hu hne
    refine havoid r hr u hu fun heq => hne ?_
    rw [(plan_eq_ok hplan).2] at heq
    exact List.inj_on_of_nodup_map hnamed.nodup_steps hu ht heq
  have hplans : ∀ t ∈ g.candidates,
      g.planAfter fs lister (earlier order' t) t = g.planAfter fs lister (earlier order t) t := by
    intro t ht
    refine planAfter_congr fun u hname hnew => ?_
    by_cases hu : u ∈ g.candidates
    · exact (hmentioned t ht u hu hname hnew).symm
    · exact iff_of_false (fun h => hu (horder'.mem_iff.mp (mem_of_mem_earlier h)))
        fun h => hu (horder.mem_iff.mp (mem_of_mem_earlier h))
  obtain ⟨hplanned, hkept⟩ := steps_of_candidates hg hfresh htree hlister hnamed
    hanchored horder hrun
    fun t ht r hr hplan u hu => hspares t (horder.mem_iff.mp ht) r hr hplan u (horder.mem_iff.mp hu)
  obtain ⟨hplanned', hkept'⟩ := steps_of_candidates hg hfresh htree hlister hnamed
    hanchored horder' hrun'
    fun t ht r' hr' hplan' u hu => by
      -- The target has the plan that it has in the other order.
      obtain ⟨r, hr, hplan, -⟩ := hplanned t (horder'.mem_iff.mp ht)
      rw [hplans t (horder'.mem_iff.mp ht)] at hplan'
      rw [← Except.ok.inj (hplan.symm.trans hplan')]
      exact hspares t (horder'.mem_iff.mp ht) r hr hplan u (horder'.mem_iff.mp hu)
  refine ⟨fun name => ?_, fun t ht u hu hname => ?_⟩
  · by_cases hname : name ∈ g.candidates.map fun t => (g.target t).autogenName
    · obtain ⟨t, ht, rfl⟩ := List.mem_map.mp hname
      obtain ⟨r, -, hplan, hget⟩ := hplanned t ht
      obtain ⟨r', -, hplan', hget'⟩ := hplanned' t ht
      rw [hplans t ht] at hplan'
      rw [hget, hget', Except.ok.inj (hplan.symm.trans hplan')]
    · rw [hkept name hname, hkept' name hname]
  · obtain ⟨r, -, hplan, hget⟩ := hplanned t ht
    have hother : (g.target u).autogenName ≠ (g.target t).autogenName := by
      have hmem := horder.mem_iff.mp (mem_of_mem_earlier hu)
      intro heq
      exact ne_of_mem_earlier hu (List.inj_on_of_nodup_map hnamed.nodup_steps hmem ht heq)
    exact ⟨_, hget, mem_dependencies_of_planAfter hg hfresh hplan hu hname hother⟩

/-! ### A project whose runs depend on their order -/

attribute [local instance] Environment.plain

/-- A project in which the first target mentions the step of the second one. -/
def namingProject : Fields :=
  [(.string "project", .map [(.string "source_dir", .string "/w/src"),
      (.string "binary_dir", .string "/w/build"), (.string "qt_version_major", .string "5")]),
    (.string "targets", .map [
      (.string "a", .map [(.string "automoc", .bool true),
        (.string "autogen_target_depends", .list [.string "b_autogen"])]),
      (.string "b", .map [(.string "automoc", .bool true)]),
      (.string "c",
        .map [(.string "automoc", .bool true), (.string "sources", .list [.string "c.h"])])])]

/-- A tree with descriptors of targets, and with the directory in which the planner runs. -/
def namingTree : FileSystem :=
  ⟨OrderedMap.ofList <| [(["cwd"], .directory), (["w"], .directory), (["w", "build"], .directory),
      (["w", "build", "CMakeFiles"], .directory)] ++
    ["a", "b", "c"].flatMap fun name =>
      [(["w", "build", "CMakeFiles", name ++ "_autogen.dir"], .directory),
        (["w", "build", "CMakeFiles", name ++ "_autogen.dir", "AutogenInfo.cmake"],
          .file ⟨.empty, 0o644⟩)]⟩

/-- The orders in which the targets are run, and what the targets then await. -/
theorem exists_namingProject : ∃ g, ofMapping namingProject = .ok g ∧ g.candidates = [0, 1, 2] ∧
    (g.target 0).autogenName = "a_autogen" ∧
    (∀ t ∈ g.candidates, ∀ u ∈ g.candidates, (g.target u).autogenName ∈ (g.target t).mentioned →
      t = 0 ∧ u = 1) ∧
    g.settings.configurations = [] ∧
    (∀ order ∈ [[0, 1, 2], [1, 0, 2], [1, 2, 0]],
      ∀ t ∈ g.candidates, g.awaited (earlier order t) t =
      if t = 0 ∧ 1 ∈ earlier order 0 then ["b_autogen"] else []) ∧
    ∀ t ∈ g.candidates, ∀ names ∈ if t = 0 then [[], ["b_autogen"]] else [[]],
      ∃ p, ((g.withKnown names).plan namingTree declaredInputs t).result = .ok p ∧
        g.Achievable namingTree p ∧ namingTree.HasFile (Path.ofString p.infoFile) ∧
        (∀ u ∈ g.candidates, ∀ source ∈ g.store.inputs u, source.path ∉ p.outputs) ∧
        (t = 0 → p.dependencies = if names = [] then ["/w/src/b_autogen"] else names) := by
  decide +kernel

/-- The runs of the targets return in each of the orders. The first target depends on the step that
it mentions if the step was registered before, and on a file of that name otherwise. -/
theorem runEach_namingProject : ∃ g, ofMapping namingProject = .ok g ∧ g.candidates = [0, 1, 2] ∧
    (∀ t ∈ g.candidates, ∀ u ∈ g.candidates, (g.target u).autogenName ∈ (g.target t).mentioned →
      t = 0 ∧ u = 1) ∧
    ∀ order ∈ [[0, 1, 2], [1, 0, 2], [1, 2, 0]], order.Perm g.candidates ∧
      ∃ results, (runEach declaredInputs order g namingTree).2.2 = .ok results ∧
        (∀ r ∈ results, ∀ u ∈ g.candidates, ∀ source ∈ g.store.inputs u,
          source.path ∉ r.plan.outputs) ∧
        ((runEach declaredInputs order g namingTree).1.utilitySteps.get? "a_autogen").map
            (·.depends) =
          some (if 1 ∈ earlier order 0 then ["b_autogen"] else ["/w/src/b_autogen"]) := by
  obtain ⟨g, hproject, hcandidates, hname, hmentioned, hnone, hawaited, hplans⟩ :=
    exists_namingProject
  refine ⟨g, hproject, hcandidates, hmentioned, fun order horder => ?_⟩
  have hloaded := loaded_of_mapping hproject
  have hanchored : ∀ t ∈ g.candidates, g.Anchored namingTree t :=
    fun t ht => hloaded.anchored namingTree (List.mem_filter.mp ht).1
  have htree : namingTree.IsTree := isTree_of_entries (by decide)
  have hperm : order.Perm g.candidates := by
    have hperms : ∀ order ∈ [[0, 1, 2], [1, 0, 2], [1, 2, 0]], order.Perm [0, 1, 2] := by decide
    rw [hcandidates]
    exact hperms order horder
  -- Only the first target awaits a step, and its plan is the one of two that goes with the order.
  have hplan : ∀ t ∈ g.candidates, ∃ p,
      (g.planAfter namingTree declaredInputs (earlier order t) t).result = .ok p ∧
        g.Achievable namingTree p ∧ namingTree.HasFile (Path.ofString p.infoFile) ∧
        (∀ u ∈ g.candidates, ∀ source ∈ g.store.inputs u, source.path ∉ p.outputs) ∧
        (t = 0 → p.dependencies = if 1 ∈ earlier order 0 then ["b_autogen"]
          else ["/w/src/b_autogen"]) := by
    intro t ht
    rw [planAfter, hawaited order horder t ht]
    by_cases hnamed : t = 0 ∧ 1 ∈ earlier order 0
    · obtain ⟨rfl, hearlier⟩ := hnamed
      obtain ⟨p, hp, hachievable, hfile, houtputs, hdepends⟩ := hplans 0 ht ["b_autogen"] (by simp)
      rw [if_pos ⟨rfl, hearlier⟩]
      exact ⟨p, hp, hachievable, hfile, houtputs, fun _ => by simp [hdepends rfl, hearlier]⟩
    · obtain ⟨p, hp, hachievable, hfile, houtputs, hdepends⟩ := hplans t ht [] (by split <;> simp)
      rw [if_neg hnamed]
      refine ⟨p, hp, hachievable, hfile, houtputs, fun ht => ?_⟩
      have hlater : 1 ∉ earlier order 0 := fun hearlier => hnamed ⟨ht, hearlier⟩
      simp [hdepends ht, hlater]
  obtain ⟨results, hrun, hresults⟩ := exists_runEach hloaded.wellFormed hloaded.fresh htree
    (not_tangled_of_entries (by simp)) (names_of_declared (by simp [hnone])) hloaded.delimiter
    steady_declaredInputs (fun t ht => hanchored t (hperm.mem_iff.mp ht))
    (.refl hloaded.fresh namingTree (hperm.nodup_iff.mpr (by rw [hcandidates]; decide)))
    fun t ht => by
      obtain ⟨p, hp, hachievable, hfile, houtputs, -⟩ := hplan t (hperm.mem_iff.mp ht)
      exact ⟨p, hp, hachievable, hfile, fun u hu _ => houtputs u (hperm.mem_iff.mp hu)⟩
  have houtputs : ∀ r ∈ results, ∀ u ∈ g.candidates, ∀ source ∈ g.store.inputs u,
      source.path ∉ r.plan.outputs := by
    intro r hr
    obtain ⟨t, ht, hplanned⟩ := hresults r hr
    obtain ⟨p, hp, -, -, houtputs, -⟩ := hplan t (hperm.mem_iff.mp ht)
    obtain rfl := Except.ok.inj (hp.symm.trans hplanned)
    exact houtputs
  refine ⟨hperm, results, hrun, houtputs, ?_⟩
  obtain ⟨hsteps, -⟩ := steps_of_candidates hloaded.wellFormed hloaded.fresh htree
    steady_declaredInputs
    hloaded.named hanchored hperm hrun fun t _ r hr _ u hu _ =>
      houtputs r hr u (hperm.mem_iff.mp hu)
  have hzero : 0 ∈ g.candidates := by simp [hcandidates]
  obtain ⟨r, -, hplanned, hstep⟩ := hsteps 0 hzero
  obtain ⟨p, hp, -, -, -, hdepends⟩ := hplan 0 hzero
  obtain rfl := Except.ok.inj (hp.symm.trans hplanned)
  rw [hname] at hstep
  rw [hstep, ← hdepends rfl]
  rfl

/-- After the targets of a project were run in an order, the step of the given name depends on the
given things. -/
def DependsAfter (fields : Fields) (fs : FileSystem) (order : List TargetId) (name : String)
    (depends : List String) : Prop :=
  ∃ g results, ofMapping fields = .ok g ∧ order.Perm g.candidates ∧
    (runEach declaredInputs order g fs).2.2 = .ok results ∧
    ((runEach declaredInputs order g fs).1.utilitySteps.get? name).map (·.depends) = some depends

theorem dependsAfter_namingProject {order : List TargetId}
    (horder : order ∈ [[0, 1, 2], [1, 0, 2], [1, 2, 0]]) :
    DependsAfter namingProject namingTree order "a_autogen"
      (if 1 ∈ earlier order 0 then ["b_autogen"] else ["/w/src/b_autogen"]) := by
  obtain ⟨g, hproject, -, -, hruns⟩ := runEach_namingProject
  obtain ⟨hperm, results, hrun, -, hdepends⟩ := hruns order horder
  exact ⟨g, results, hproject, hperm, hrun, hdepends⟩

/-- A project in which an output of the second target is a source of the first one. -/
def sharingProject : Fields :=
  [(.string "project", .map [(.string "source_dir", .string "/w/src"),
      (.string "binary_dir", .string "/w/build"), (.string "qt_version_major", .string "5"),
      (.string "generated_file_policy", .string "new")]),
    (.string "targets", .map [
      (.string "a", .map [(.string "automoc", .bool true), (.string "sources", .list [.map [
        (.string "path", .string "/w/build/b_autogen/mocs_compilation.cpp"),
        (.string "generated", .bool true)]])]),
      (.string "b", .map [(.string "automoc", .bool true)])])]

/-- What the targets plan one after the other, whichever comes first, and what the first one depends
on. -/
theorem exists_sharingProject : ∃ g, ofMapping sharingProject = .ok g ∧ g.candidates = [0, 1] ∧
    (g.target 0).autogenName = "a_autogen" ∧ (g.target 1).autogenName = "b_autogen" ∧
    g.settings.configurations = [] ∧
    ∀ t ∈ [0, 1], ∃ p, (g.plan namingTree declaredInputs t).result = .ok p ∧
      g.Achievable namingTree p ∧
      ∃ q, ((g.settled namingTree declaredInputs t p).plan namingTree declaredInputs
        (1 - t)).result = .ok q ∧
        (g.settled namingTree declaredInputs t p).Achievable namingTree q ∧
        namingTree.HasFile (Path.ofString q.infoFile) ∧
        (t = 0 → p.dependencies = ["/w/build/b_autogen/mocs_compilation.cpp"]) ∧
        (t = 1 → q.dependencies = []) := by
  decide +kernel

theorem dependsAfter_sharingProject {t : TargetId} (ht : t ∈ [0, 1]) :
    DependsAfter sharingProject namingTree [t, 1 - t] "a_autogen"
      (if t = 0 then ["/w/build/b_autogen/mocs_compilation.cpp"] else []) := by
  obtain ⟨g, hproject, hcandidates, hname, hname', hnone, hplans⟩ := exists_sharingProject
  obtain ⟨p, hp, hachievable, q, hq, hachievable', hfile, hfirst, hsecond⟩ := hplans t ht
  have hloaded := loaded_of_mapping hproject
  have htree : namingTree.IsTree := isTree_of_entries (by decide)
  obtain ⟨results, hrun, hsteps⟩ := exists_runEach_pair hloaded.wellFormed hloaded.fresh htree
    (not_tangled_of_entries (by simp)) (names_of_declared (by simp [hnone]))
    hloaded.delimiter steady_declaredInputs (by decide) hp hachievable hq hachievable' hfile
  have hperms : ∀ t ∈ [0, 1], List.Perm [t, 1 - t] [0, 1] := by decide
  refine ⟨g, results, hproject, hcandidates ▸ hperms t ht, hrun, ?_⟩
  rw [hsteps]
  obtain rfl | rfl : t = 0 ∨ t = 1 := by simpa using ht
  · rw [OrderedMap.get?_insert, hname, hname', OrderedMap.get?_insert]
    simpa [generationStep] using hfirst
  · rw [OrderedMap.get?_insert, hname]
    simpa [generationStep] using hsecond

/-- A target that mentions the step of another one depends on that step only if it is run after that
one, and a target of which a source is an output of another one depends on that source only if it is
run before that one. -/
theorem dependsAfter_orders :
    (DependsAfter namingProject namingTree [0, 1, 2] "a_autogen" ["/w/src/b_autogen"] ∧
      DependsAfter namingProject namingTree [1, 0, 2] "a_autogen" ["b_autogen"]) ∧
    DependsAfter sharingProject namingTree [0, 1]
      "a_autogen" ["/w/build/b_autogen/mocs_compilation.cpp"] ∧
      DependsAfter sharingProject namingTree [1, 0] "a_autogen" [] :=
  ⟨⟨dependsAfter_namingProject (by simp), dependsAfter_namingProject (by simp)⟩,
    dependsAfter_sharingProject (by simp), dependsAfter_sharingProject (by simp)⟩

/-- The last target can be run before the first one or after it. -/
theorem steps_of_orders_namingProject : ∃ g results results', ofMapping namingProject = .ok g ∧
    List.Perm [1, 0, 2] g.candidates ∧ List.Perm [1, 2, 0] g.candidates ∧
    (runEach declaredInputs [1, 0, 2] g namingTree).2.2 = .ok results ∧
    (runEach declaredInputs [1, 2, 0] g namingTree).2.2 = .ok results' ∧
    (∀ r ∈ results, ∀ u ∈ g.candidates, (g.target u).autogenName ≠ r.plan.autogenTargetName →
      ∀ source ∈ g.store.inputs u, source.path ∉ r.plan.outputs) ∧
    (∀ t ∈ g.candidates, ∀ u ∈ g.candidates, (g.target u).autogenName ∈ (g.target t).mentioned →
      g.isKnown (g.target u).autogenName = false →
      (u ∈ earlier [1, 0, 2] t ↔ u ∈ earlier [1, 2, 0] t)) ∧
    (∀ name, (runEach declaredInputs [1, 0, 2] g namingTree).1.utilitySteps.get? name =
      (runEach declaredInputs [1, 2, 0] g namingTree).1.utilitySteps.get? name) ∧
    ∀ t ∈ g.candidates, ∀ u ∈ earlier [1, 0, 2] t,
      (g.target u).autogenName ∈ (g.target t).mentioned →
      ∃ step, (runEach declaredInputs [1, 0, 2] g namingTree).1.utilitySteps.get?
        (g.target t).autogenName =
        some step ∧ (g.target u).autogenName ∈ step.depends := by
  obtain ⟨g, hproject, -, hmentioned, hruns⟩ := runEach_namingProject
  have hloaded := loaded_of_mapping hproject
  obtain ⟨hperm, results, hrun, houtputs, -⟩ := hruns [1, 0, 2] (by simp)
  obtain ⟨hperm', results', hrun', -, -⟩ := hruns [1, 2, 0] (by simp)
  have havoid :
      ∀ r ∈ results, ∀ u ∈ g.candidates, (g.target u).autogenName ≠ r.plan.autogenTargetName →
      ∀ source ∈ g.store.inputs u, source.path ∉ r.plan.outputs :=
    fun r hr u hu _ => houtputs r hr u hu
  have horders : ∀ t ∈ g.candidates, ∀ u ∈ g.candidates,
      (g.target u).autogenName ∈ (g.target t).mentioned →
        g.isKnown (g.target u).autogenName = false →
        (u ∈ earlier [1, 0, 2] t ↔ u ∈ earlier [1, 2, 0] t) := by
    intro t ht u hu hname _
    obtain ⟨rfl, rfl⟩ := hmentioned t ht u hu hname
    decide
  exact ⟨g, results, results', hproject, hperm, hperm', hrun, hrun', havoid, horders,
    steps_of_orders hloaded.wellFormed hloaded.fresh hloaded.named (isTree_of_entries (by decide))
      (fun t ht => hloaded.anchored namingTree (List.mem_filter.mp ht).1) steady_declaredInputs
      hperm hperm' hrun hrun' havoid horders⟩

end Graph

end Autogen
