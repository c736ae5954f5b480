import Autogen.Proofs.FileSystem.Linkless
import Autogen.Proofs.Plan.Faults
import Autogen.Proofs.Plan.Order
import Mathlib.Data.List.Find

/-!
# Outputs of earlier plans

What a run generates is marked as an output, so that it is never an input of a later plan. The mark
is on one source entry for each path: the one that stands for the path. Other entries with the path,
or with another spelling of it, are not marked, and a target that declares one of them has the file
among its inputs still.

## Main definitions

* `Graph.entryFor?` — the entry that stands for a path, if there is one already.
* `Graph.PlanningCall` — the graphs and trees that plans and runs leave behind.
* `Graph.Later` — what such calls leave of a graph and a tree.

## Main statements

* `Graph.entryFor?_run` — the entry that stands for a path stays.
* `Graph.grows_of_calls`, `Graph.Later.calls` — calls make a graph grow, and leave graphs and trees
  that are later ones.
* `Graph.not_scanned_after_run` — what a run has generated is not an input of later plans.
-/

namespace Autogen

open FileSystem

namespace Graph

variable {g g' g'' : Graph} {t u : TargetId} {fs fs' fs'' : FileSystem} {lister : ResourceLister}
  {planned : Set TargetId} {outputs : Set String} {path : String} {id : SourceId}

/-! ## The entry for a path -/

/-- The entry that stands for a path, if there is one already: the one in the index, else the first
one that a target declares. -/
def entryFor? (g : Graph) (path : String) : Option SourceId :=
  (g.sourceIndex.get? path).or (g.declaredSource? path)

/-- An entry that stands for a path is the one that is taken for it. -/
theorem sourceFor_of_entryFor? (h : g.entryFor? path = some id) : (g.sourceFor path).1 = id := by
  unfold entryFor? at h
  unfold sourceFor
  grind

/-- Growth by outputs leaves the first entries of other paths as they are. -/
theorem declaredSource?_grows (hg : g.WellFormed) (h : g.store.Grows planned outputs g'.store)
    (htargets : g'.targets = g.targets) (hother : path ∉ outputs) :
    g'.declaredSource? path = g.declaredSource? path := by
  have hfind (u : TargetId) : g'.store.findPath? path (g'.target u).sources =
      g.store.findPath? path (g.target u).sources := by
    obtain ⟨added, heq, hadded⟩ := h.sources u
    have hnew : added.find? (fun id => decide (g'.store.path id = path)) = none := by
      rw [List.find?_eq_none]
      intro id hid hpath
      exact hother (of_decide_eq_true hpath ▸ (hadded id hid).2.1)
    have hold : ∀ id ∈ (g.store.target u).sources,
        decide (g'.store.path id = path) = decide (g.store.path id = path) := by
      intro id hid
      rw [h.path (hg.linked.source_lt u id hid)]
    unfold Store.findPath? target
    rw [heq, List.find?_append, hnew, Option.or_none, List.find?_congr hold]
  simp only [declaredSource?, targetIds, htargets, hfind]

/-- Growth by outputs leaves the entries of other paths as they are. -/
theorem entryFor?_grows (hg : g.WellFormed) (h : g.store.Grows planned outputs g'.store)
    (htargets : g'.targets = g.targets) (hother : path ∉ outputs)
    (hindex : g'.sourceIndex.get? path = g.sourceIndex.get? path) :
    g'.entryFor? path = g.entryFor? path := by
  rw [entryFor?, entryFor?, hindex, declaredSource?_grows hg h htargets hother]

/-- The entry that stands for a path stays when an output is registered, whatever its path is. -/
theorem entryFor?_registerSource (hg : g.WellFormed) (t : TargetId) (output : String)
    (h : g.entryFor? path = some id) : (g.registerSource t output).entryFor? path = some id := by
  obtain ⟨store, hframe⟩ := frame_registerSource g t output
  obtain ⟨hgrows, -, -⟩ := registerSource_spec hg t output
  by_cases heq : path = output
  · subst heq
    have hindexed : (g.registerSource t path).sourceIndex.get? path = some id := by
      rw [hframe, ← sourceFor_of_entryFor? h]
      exact (sourceFor_spec hg path).indexed
    rw [entryFor?, hindexed, Option.some_or]
  · have hindex : (g.registerSource t output).sourceIndex.get? path = g.sourceIndex.get? path := by
      rw [hframe]
      unfold sourceFor newSource
      grind [OrderedMap.get?_insert]
    rw [entryFor?_grows hg hgrows.store hgrows.targets heq hindex]
    exact h

theorem entryFor?_registerFiles {e : Effects} (hg : e.graph.WellFormed) (t : TargetId)
    (files : List GeneratedFile) (h : e.graph.entryFor? path = some id) :
    (registerFiles t e files).1.graph.entryFor? path = some id := by
  induction files generalizing e with
  | nil => exact h
  | cons file rest ih =>
    have hregistered := entryFor?_registerSource hg t file.path h
    obtain ⟨hgrows, -, -⟩ := registerSource_spec hg t file.path
    obtain ⟨hgroup, -⟩ := groupFile_spec { e with graph := e.graph.registerSource t file.path } file
    obtain ⟨groups, hframe⟩ :=
      frame_groupFile { e with graph := e.graph.registerSource t file.path } file
    have hgrouped :
        (groupFile { e with graph := e.graph.registerSource t file.path } file).1.graph.entryFor?
            path = some id := by
      rw [hframe]
      exact hregistered
    have hwell := (hg.grows hgrows).grows hgroup
    rw [registerFiles]
    generalize groupFile { e with graph := e.graph.registerSource t file.path } file = out at *
    obtain ⟨e', _ | fault⟩ := out
    · exact ih hwell hgrouped
    · exact hgrouped

/-- The entry that stands for a path stays when a plan is made. -/
theorem entryFor?_plan [Environment] (hg : g.WellFormed) (hfresh : g.Fresh) (fs : FileSystem)
    (lister : ResourceLister) (t : TargetId) (path : String) :
    (g.plan fs lister t).graph.entryFor? path = g.entryFor? path := by
  have hgrows := plan_grows hg hfresh fs lister t
  obtain ⟨store, files, hframe⟩ := frame_plan g fs lister t
  exact entryFor?_grows hg hgrows.store hgrows.targets (Set.notMem_empty path) (by rw [hframe])

/-- The entry that stands for a path stays in a run. -/
theorem entryFor?_run [Environment] (hg : g.WellFormed) (hfresh : g.Fresh) (fs : FileSystem)
    (lister : ResourceLister) (t : TargetId) (h : g.entryFor? path = some id) :
    (g.run fs lister t).graph.entryFor? path = some id := by
  have hplanned : (g.plan fs lister t).graph.entryFor? path = some id := by
    rw [entryFor?_plan hg hfresh, h]
  rcases run_graph g fs lister t with ⟨fault, -, heq⟩ | ⟨p, -, heq⟩
  · rw [heq]
    exact hplanned
  · have hg' := hg.grows (plan_grows hg hfresh fs lister t)
    have hprepared : ((g.plan fs lister t).graph.prepared t p
        (g.plan fs lister t).diagnostics).graph.WellFormed :=
      hg'.grows (prepared_grows _ t p _ : Grows ∅ ∅ _ _)
    have hfiles := entryFor?_registerFiles hprepared t p.generatedFiles hplanned
    have hwell := hprepared.grows (registerFiles_spec hprepared t p.generatedFiles).1
    rcases emit_cases (g.plan fs lister t).graph fs t p (g.plan fs lister t).diagnostics with
      ⟨-, fault, hemit⟩ | ⟨-, -, hemit⟩
    · rw [heq, hemit]
      exact hfiles
    · rw [heq, hemit]
      simp only
      generalize (registerFiles t _ p.generatedFiles).1.graph = registered at hfiles hwell ⊢
      have hstep : registered.store.Grows {t} ∅ (registered.withStep t p).store :=
        Store.grows_modifyTarget (Set.mem_singleton t) (fun _ => rfl) fun _ => rfl
      rw [entryFor?_grows hwell hstep rfl (Set.notMem_empty path) rfl]
      exact hfiles

/-! ## Calls -/

/-- The graphs and trees that plans and runs leave behind, whatever comes of them. -/
inductive PlanningCall [Environment] : Graph × FileSystem → Graph × FileSystem → Prop
  | plan (g : Graph) (fs : FileSystem) (lister : ResourceLister) (t : TargetId) :
      PlanningCall (g, fs) ((g.plan fs lister t).graph, fs)
  | run (g : Graph) (fs : FileSystem) (lister : ResourceLister) (t : TargetId) :
      PlanningCall (g, fs) ((g.run fs lister t).graph, (g.run fs lister t).files)

theorem PlanningCall.grows [Environment] (hg : g.WellFormed) (hfresh : g.Fresh)
    (hcall : PlanningCall (g, fs) (g', fs')) : g.Grows Set.univ Set.univ g' ∧ g'.Fresh := by
  cases hcall with
  | plan _ _ lister t =>
    obtain ⟨hgrows, hfresh', -⟩ := plan_graph hg hfresh fs lister t
    exact ⟨hgrows.mono (Set.subset_univ _) (Set.subset_univ _), hfresh'⟩
  | run _ _ lister t =>
    obtain ⟨hgrows, hfresh', -⟩ := run_spec hg hfresh fs lister t
    exact ⟨hgrows.mono (Set.subset_univ _) (Set.subset_univ _), hfresh'⟩

/-- Calls make a graph grow, whatever tree they are made in. -/
theorem grows_of_calls [Environment] {before after : Graph × FileSystem} (hg : before.1.WellFormed)
    (hfresh : before.1.Fresh) (hcalls : Relation.ReflTransGen PlanningCall before after) :
    before.1.Grows Set.univ Set.univ after.1 ∧ after.1.Fresh := by
  induction hcalls with
  | refl => exact ⟨.refl before.1, hfresh⟩
  | tail _ hcall ih =>
    obtain ⟨hgrows, hfresh'⟩ := hcall.grows (hg.grows ih.1) ih.2
    exact ⟨ih.1.trans hgrows, hfresh'⟩

/-- What plans and runs leave of a graph and a tree: both have grown, and the entries that stood for
paths stand for them still. -/
structure Later (g : Graph) (fs : FileSystem) (g' : Graph) (fs' : FileSystem) : Prop where
  graph : g.Grows Set.univ Set.univ g'
  fresh : g'.Fresh
  tree : fs.Grows fs'
  entry : ∀ path id, g.entryFor? path = some id → g'.entryFor? path = some id

theorem Later.refl (hfresh : g.Fresh) (fs : FileSystem) : Later g fs g fs :=
  ⟨.refl g, hfresh, .refl fs, fun _ _ h => h⟩

theorem Later.trans (h : Later g fs g' fs') (h' : Later g' fs' g'' fs'') : Later g fs g'' fs'' where
  graph := h.graph.trans h'.graph
  fresh := h'.fresh
  tree := h.tree.trans h'.tree
  entry path id hid := h'.entry path id (h.entry path id hid)

theorem Later.call [Environment] (hg : g.WellFormed) (hfresh : g.Fresh) (htree : fs.IsTree)
    (hcall : PlanningCall (g, fs) (g', fs')) : Later g fs g' fs' := by
  obtain ⟨hgrows, hfresh'⟩ := hcall.grows hg hfresh
  cases hcall with
  | plan _ _ lister t =>
    refine ⟨hgrows, hfresh', .refl fs, fun path id h => ?_⟩
    rw [entryFor?_plan hg hfresh, h]
  | run _ _ lister t =>
    exact ⟨hgrows, hfresh', run_files_grows htree g lister t,
      fun path id h => entryFor?_run hg hfresh fs lister t h⟩

/-- Calls leave graphs and trees that are later ones. -/
theorem Later.calls [Environment] {before after : Graph × FileSystem} (hg : before.1.WellFormed)
    (hfresh : before.1.Fresh) (htree : before.2.IsTree)
    (hcalls : Relation.ReflTransGen PlanningCall before after) :
    Later before.1 before.2 after.1 after.2 := by
  induction hcalls with
  | refl => exact .refl hfresh before.2
  | tail _ hcall ih =>
      exact ih.trans (.call (hg.grows ih.graph) ih.fresh (ih.tree.tree htree) hcall)

/-! ## Inputs of later plans -/

/-- What a plan scans are inputs of its target. -/
theorem exists_of_scanned [Environment] (hg : g.WellFormed) (hfresh : g.Fresh) {p : Plan}
    (hp : (g.plan fs lister t).result = .ok p) (hpath : path ∈ p.classification.scanned) :
    ∃ id ∈ (g.target t).sources, (g.store.source id).autogenOutput = false ∧
      canonicalPath fs (g.store.path id) none = .ok path := by
  obtain ⟨store, -, hplanned⟩ := plan_examined hg hfresh t
  obtain ⟨-, findings, found, hexamined, rfl⟩ := findings_of_plan hp
  rw [hplanned] at hexamined
  obtain ⟨-, -, -, -, -, warnings, hclassify, -⟩ := findings_of_examine (Prod.ext rfl hexamined)
  obtain ⟨s, hs, hinput, hcanonical⟩ := Classifier.exists_of_mem_scanned hclassify hpath
  obtain ⟨hs, -⟩ := List.mem_filter.mp (mem_inputs_of_included hs hinput)
  obtain ⟨id, hid, rfl⟩ := List.mem_map.mp hs
  exact ⟨id, hid, hinput, hcanonical⟩

/-- Inputs of a target were declared for it before all calls. -/
theorem Later.input (h : Later g fs g' fs') (hid : id ∈ (g'.target u).sources)
    (hinput : (g'.store.source id).autogenOutput = false) (hg : g.WellFormed) :
    id ∈ (g.target u).sources ∧ g'.store.source id = g.store.source id := by
  have hunmarked : markOutput (g'.store.source id) ≠ g'.store.source id := by
    intro hmark
    rw [← hmark] at hinput
    cases hinput
  obtain ⟨added, heq, hadded⟩ := h.graph.store.sources u
  rw [target, heq] at hid
  rcases List.mem_append.mp hid with hold | hnew
  · refine ⟨hold, ?_⟩
    rcases h.graph.store.source id (hg.linked.source_lt u id hold) with hsame | ⟨-, hmarked⟩
    · exact hsame
    · rw [hmarked] at hinput
      cases hinput
  · exact absurd (hadded id hnew).2.2 hunmarked

/-- In a tree without links, what a run has generated is not an input of any later plan, provided
that the plan's target has declared no other entry that leads to the file than the one that stands
for it. -/
theorem not_scanned_after_run [Environment] (hg : g.WellFormed)
    (hfresh : g.Fresh) (htree : fs.IsTree) (hlinks : fs.Linkless) {g₁ g₂ : Graph}
    {fs₁ fs₂ : FileSystem} {lister' : ResourceLister}
    (hbefore : Relation.ReflTransGen PlanningCall (g, fs) (g₁, fs₁)) {r : RunResult}
    (hr : (g₁.run fs₁ lister t).result = .ok r) {file : GeneratedFile}
    (hfile : file ∈ r.plan.generatedFiles) (hafter : Relation.ReflTransGen PlanningCall
      ((g₁.run fs₁ lister t).graph, (g₁.run fs₁ lister t).files) (g₂, fs₂))
    {p : Plan} (hp : (g₂.plan fs₂ lister' u).result = .ok p)
    (hentry : ∀ id ∈ (g.target u).sources, (g.store.source id).autogenOutput = false →
      canonicalPath fs (g.store.path id) none = .ok file.path → g.entryFor? file.path = some id) :
    file.path ∉ p.classification.scanned := by
  intro hscanned
  have hfirst := Later.calls hg hfresh htree hbefore
  have hg₁ := hg.grows hfirst.graph
  have hrun : Later g₁ fs₁ (g₁.run fs₁ lister t).graph (g₁.run fs₁ lister t).files :=
    .call hg₁ hfirst.fresh (hfirst.tree.tree htree) (.run g₁ fs₁ lister t)
  have hmiddle := hfirst.trans hrun
  have hlast := Later.calls (hg.grows hmiddle.graph) hmiddle.fresh (hmiddle.tree.tree htree) hafter
  have hall := hmiddle.trans hlast
  obtain ⟨id, hid, hinput, hcanonical⟩ := exists_of_scanned (hg.grows hall.graph)
    hall.fresh hp hscanned
  obtain ⟨hdeclared, hsame⟩ := hall.input hid hinput hg
  -- The entry leads to the file now as it did in the beginning, so it is the one that stands for
  -- the file.
  have hcanonical' : canonicalPath fs (g.store.path id) none = .ok file.path := by
    rw [canonicalPath_linkless hlinks (hlinks.grows hall.tree), ← hcanonical,
      Store.path, Store.path, hsame]
  have hstands := hall.entry _ _ (hentry id hdeclared (hsame ▸ hinput) hcanonical')
  -- The run has marked the one that stands for the file.
  obtain ⟨-, -, hregistered⟩ := run_spec hg₁ hfirst.fresh fs₁ lister t
  obtain ⟨output, hindex, hmark, -⟩ :=
    ((hregistered r hr).2 file hfile).grows (hg.grows hmiddle.graph) hlast.graph
  rw [entryFor?, hindex, Option.some_or] at hstands
  obtain rfl := Option.some.inj hstands
  rw [← hmark] at hinput
  cases hinput

attribute [local instance] Environment.plain

/-- The file that moc's output for the first target is compiled in. -/
def sharedOutput : GeneratedFile :=
  ⟨"/w/build/a_autogen/mocs_compilation.cpp", .moc⟩

/-- A project in which two targets declare an output of the first one as a source. -/
def sharedProject : Fields :=
  [(.string "project", .map [(.string "source_dir", .string "/w/src"),
      (.string "binary_dir", .string "/w/build"), (.string "qt_version_major", .string "5")]),
    (.string "targets", .map (["a", "b"].map fun name =>
      (.string name, .map [(.string "automoc", .bool true),
        (.string "sources", .list [.string sharedOutput.path])])))]

theorem exists_sharedProject : ∃ g, ofMapping sharedProject = .ok g ∧
    g.settings.configurations = [] ∧
    (∀ id ∈ (g.target 0).sources, g.entryFor? sharedOutput.path = some id) ∧
    ∃ p, (g.plan namingTree declaredInputs 0).result = .ok p ∧ g.Achievable namingTree p ∧
      p.generatedFiles = [sharedOutput] ∧
      ∀ u ∈ [0, 1],
        ∃ q, ((g.settled namingTree declaredInputs 0 p).plan namingTree declaredInputs u).result =
        .ok q ∧ (sharedOutput.path ∈ q.classification.scanned ↔ u = 1) := by
  decide +kernel

theorem linkless_namingTree : namingTree.Linkless :=
  linkless_of_entries (by simp)

/-- After a run of the first target both targets can be planned. -/
theorem plans_after_run_sharedProject : ∃ g : Graph, g.WellFormed ∧ g.Fresh ∧
    (∀ id ∈ (g.target 0).sources, g.entryFor? sharedOutput.path = some id) ∧
    ∃ r, (g.run namingTree declaredInputs 0).result = .ok r ∧ sharedOutput ∈ r.plan.generatedFiles ∧
      ∀ u ∈ [0, 1], ∃ q, ((g.run namingTree declaredInputs 0).graph.plan
        (g.run namingTree declaredInputs 0).files declaredInputs u).result = .ok q ∧
          (sharedOutput.path ∈ q.classification.scanned ↔ u = 1) := by
  obtain ⟨g, hproject, hnone, hentry, p, hp, hachievable, hfiles, hplans⟩ := exists_sharedProject
  have hloaded := loaded_of_mapping hproject
  have htree : namingTree.IsTree := isTree_of_entries (by decide)
  obtain ⟨r, hr, rfl⟩ := run_of_achievable hloaded.wellFormed hloaded.fresh
    (names_of_declared (by simp [hnone])) hloaded.delimiter hp hachievable
  refine ⟨g, hloaded.wellFormed, hloaded.fresh, hentry, r, hr, by simp [hfiles], fun u hu => ?_⟩
  obtain ⟨q, hq, hscanned⟩ := hplans u hu
  have hlater : Later g namingTree _ _ :=
    .call hloaded.wellFormed hloaded.fresh htree (.run g namingTree declaredInputs 0)
  have hheld : namingTree.find? Path.workingDirectory.parts = some .directory := by decide
  refine ⟨q, ?_, hscanned⟩
  rw [plan_of_grown (hloaded.wellFormed.grows hlater.graph) hlater.fresh htree
    linkless_namingTree.not_tangled
    steady_declaredInputs ⟨.inr hheld, fun _ _ => .inr hheld⟩ hlater.tree, graph_of_run hr]
  exact hq

/-- The second target has an entry of its own for the output, and plans it again. -/
theorem scanned_after_run_sharedProject :
    namingTree.Linkless ∧ ∃ g : Graph, g.WellFormed ∧ g.Fresh ∧
      ∃ r, (g.run namingTree declaredInputs 0).result = .ok r ∧
        sharedOutput ∈ r.plan.generatedFiles ∧
        ∃ q, ((g.run namingTree declaredInputs 0).graph.plan
          (g.run namingTree declaredInputs 0).files declaredInputs 1).result = .ok q ∧
            sharedOutput.path ∈ q.classification.scanned := by
  obtain ⟨g, hg, hfresh, -, r, hr, hfile, hplans⟩ := plans_after_run_sharedProject
  obtain ⟨q, hq, hscanned⟩ := hplans 1 (by simp)
  exact ⟨linkless_namingTree, g, hg, hfresh, r, hr, hfile, q, hq, hscanned.mpr rfl⟩

/-- The first target does not plan its output again. -/
theorem not_scanned_after_run_sharedProject :
    ∃ g : Graph, g.WellFormed ∧ g.Fresh ∧ namingTree.IsTree ∧ namingTree.Linkless ∧
      ∃ r, (g.run namingTree declaredInputs 0).result = .ok r ∧
        sharedOutput ∈ r.plan.generatedFiles ∧
        ∃ q, ((g.run namingTree declaredInputs 0).graph.plan
          (g.run namingTree declaredInputs 0).files declaredInputs 0).result = .ok q ∧
            sharedOutput.path ∉ q.classification.scanned := by
  obtain ⟨g, hg, hfresh, hentry, r, hr, hfile, hplans⟩ := plans_after_run_sharedProject
  obtain ⟨q, hq, -⟩ := hplans 0 (by simp)
  have htree : namingTree.IsTree := isTree_of_entries (by decide)
  exact ⟨g, hg, hfresh, htree, linkless_namingTree, r, hr, hfile, q, hq,
    not_scanned_after_run hg hfresh htree linkless_namingTree .refl hr hfile .refl hq
      fun id hid _ _ => hentry id hid⟩

end Graph

end Autogen
