import Autogen.Proofs.Plan.Effects

/-!
# Calls on a graph

Merged source lists are remembered by the targets they are made for, and they are made from lists
that other targets remember. No call leaves a list behind that is out of date, whatever was called
before and whether it succeeds.

## Main definitions

* `Graph.Call` — the graphs that a call leaves behind.
* `Graph.Coherent` — a well-formed graph with fresh lists.

## Main statements

* `Graph.Coherent.call`, `Graph.Coherent.calls` — calls keep a graph coherent.
* `Graph.remembered_after_calls` — what is remembered after any calls, and what a run makes of it.
-/

namespace Autogen.Graph

variable {g g' : Graph}

/-- The graphs that a call leaves behind. A call can only be about what is there; one that is
refused or fails on the way leaves what it has changed until then. -/
inductive Call [Environment] (g : Graph) : Graph → Prop
  | linkLibrary (t library : TargetId) (ht : t < g.store.targets.length)
      (hlibrary : library < g.store.targets.length) :
      Call g ((g.linkLibrary t library).toOption.getD g)
  | commonSources (t : TargetId) : Call g (g.commonSources t).2
  | clearSources (t : TargetId) : Call g (g.clearSources t)
  | newSource (entry : SourceFile) : Call g (g.newSource entry).2
  | addSource (t : TargetId) (id : SourceId) (hid : id < g.store.sources.length) :
      Call g ((g.addSource t id).2.clearSources t)
  | plan (fs : FileSystem) (lister : ResourceLister) (t : TargetId) :
      Call g (g.plan fs lister t).graph
  | run (fs : FileSystem) (lister : ResourceLister) (t : TargetId) :
      Call g (g.run fs lister t).graph

/-- A well-formed graph whose lists are fresh. -/
structure Coherent (g : Graph) : Prop where
  wellFormed : g.WellFormed
  fresh : g.Fresh

/-- A graph is coherent as long as nothing is remembered. -/
theorem WellFormed.coherent (hg : g.WellFormed) (hnone : ∀ t, (g.target t).sourceCache = none) :
    g.Coherent where
  wellFormed := hg
  fresh t ids hids := by
    have hnone : (g.store.target t).sourceCache = none := hnone t
    rw [hids] at hnone
    cases hnone

theorem Coherent.remembers (hg : g.Coherent) : g.store.RemembersMerged :=
  (Store.fresh_iff hg.wellFormed.linked).mp hg.fresh

theorem WellFormed.coherent_of_remembers (hg : g.WellFormed) (h : g.store.RemembersMerged) :
    g.Coherent :=
  ⟨hg, (Store.fresh_iff hg.linked).mpr h⟩

theorem Coherent.linkLibrary {t library : TargetId} (hg : g.Coherent)
    (ht : t < g.store.targets.length) (hlibrary : library < g.store.targets.length)
    (h : g.linkLibrary t library = .ok g') : g'.Coherent := by
  obtain ⟨store, hlink, rfl⟩ := linkLibrary_eq_ok h
  refine (hg.wellFormed.linkLibrary ht hlibrary h).coherent_of_remembers ?_
  have hlinked := hg.wellFormed.linked
  obtain ⟨hne, hfree, ⟨-, rfl⟩ | ⟨-, rfl⟩⟩ := Store.linkLibrary_cases hlink
  · exact hg.remembers
  · have hadded := hlinked.addLink ht hlibrary hne (mt (Store.mem_libraries hlinked).mpr hfree)
    refine hg.remembers.clearSources hlinked hadded (by simp [Store.addLink]) (fun _ _ => rfl)
      (fun u => ?_) (fun u hu => ?_) fun u hu => ?_
    · rw [Store.target_addLink ht hlibrary]
    · exact hu.mono fun a b huse => (Store.uses_addLink ht hlibrary a b).mpr (.inl huse)
    · rw [Store.target_addLink ht hlibrary, if_neg hu.symm]
      exact ⟨rfl, rfl⟩

theorem Coherent.commonSources (hg : g.Coherent) (t : TargetId) :
    (g.commonSources t).2.Coherent := by
  obtain ⟨-, hbare, hfresh⟩ := Store.commonSources_spec hg.wellFormed.linked hg.fresh t
  exact ⟨hg.wellFormed.grows (.of_store (.of_bare hbare) : g.Grows ∅ ∅ _), hfresh⟩

theorem Coherent.clearSources (hg : g.Coherent) (t : TargetId) : (g.clearSources t).Coherent := by
  have hgrows : g.Grows ∅ ∅ (g.clearSources t) :=
    .of_store (.of_bare (Store.bare_clearSources g.store t))
  exact (hg.wellFormed.grows hgrows).coherent_of_remembers
    (hg.remembers.forget hg.wellFormed.linked _)

theorem Coherent.newSource (hg : g.Coherent) (entry : SourceFile) :
    (g.newSource entry).2.Coherent := by
  have hgrows : g.Grows ∅ ∅ (g.newSource entry).2 := .of_store (Store.grows_newSource entry)
  refine (hg.wellFormed.grows hgrows).coherent_of_remembers ?_
  exact hg.remembers.congr hg.wellFormed.linked rfl (fun id hid => hgrows.store.path hid)
    fun u ids hids => ⟨hids, fun v _ => ⟨rfl, rfl⟩⟩

theorem Coherent.addSource {id : SourceId} (hg : g.Coherent) (t : TargetId)
    (hid : id < g.store.sources.length) : ((g.addSource t id).2.clearSources t).Coherent := by
  rw [addSource_eq]
  rcases Store.addSource_cases g.store t id with ⟨-, heq⟩ | ⟨-, heq⟩
  · rw [heq]
    exact hg.clearSources t
  · have hpart {α : Type} (part : Target → α)
        (hpart : ∀ x ids, part { x with sources := ids } = part x) (u : TargetId) :
        part ((g.store.addSource t id).2.target u) = part (g.store.target u) :=
      Store.part_addSource part hpart g.store t id u
    have hlinked := hg.wellFormed.linked.addSource t hid
    have hgraph : ({ g with store := (g.store.addSource t id).2 } : Graph).WellFormed := by
      refine ⟨hlinked, fun path other hother => ?_⟩
      simp only [heq]
      exact hg.wellFormed.index path other hother
    have hgrows : ({ g with store := (g.store.addSource t id).2 } : Graph).Grows ∅ ∅
        (({ g with store := (g.store.addSource t id).2 } : Graph).clearSources t) :=
      .of_store (.of_bare (Store.bare_clearSources _ t))
    refine (hgraph.grows hgrows).coherent_of_remembers ?_
    -- Only the list of the target itself has changed, and it is forgotten with those that depend on
    -- it.
    refine hg.remembers.clearSources hg.wellFormed.linked hlinked ?_ (fun other _ => ?_)
      (hpart _ fun _ _ => rfl) (fun u hu => ?_) fun u hu => ⟨?_, hpart _ (fun _ _ => rfl) u⟩
    · rw [heq, Store.length_targets_modifyTarget]
    · rw [heq]
      rfl
    · refine hu.mono fun a b huse => ?_
      exact (congrArg (b ∈ ·) (hpart Target.objectLibraries (fun _ _ => rfl) a)).mpr huse
    · rw [heq, Store.target_modifyTarget, if_neg fun h => hu h.1.symm]

/-- Calls keep a graph coherent. -/
theorem Coherent.call [Environment] (hg : g.Coherent) (h : g.Call g') : g'.Coherent := by
  cases h with
  | linkLibrary t library ht hlibrary =>
    cases hlink : g.linkLibrary t library with
    | error fault => exact hg
    | ok linked => exact hg.linkLibrary ht hlibrary hlink
  | commonSources t => exact hg.commonSources t
  | clearSources t => exact hg.clearSources t
  | newSource entry => exact hg.newSource entry
  | addSource t id hid => exact hg.addSource t hid
  | plan fs lister t =>
    obtain ⟨hgrows, hfresh, -⟩ := plan_graph hg.wellFormed hg.fresh fs lister t
    exact ⟨hg.wellFormed.grows hgrows, hfresh⟩
  | run fs lister t =>
    obtain ⟨hgrows, hfresh, -⟩ := run_spec hg.wellFormed hg.fresh fs lister t
    exact ⟨hg.wellFormed.grows hgrows, hfresh⟩

theorem Coherent.calls [Environment] (hg : g.Coherent) (h : Relation.ReflTransGen Call g g') :
    g'.Coherent := by
  induction h with
  | refl => exact hg
  | tail _ hcall ih => exact ih.call hcall

/-- The entries that a plan's outputs are registered as are found in the merged list of the target
and of everything that is compiled from it. -/
theorem Registered.mem_commonSources {t u : TargetId} {path : String} (hg : g.Coherent)
    (h : g.Registered t path) (hu : u = t ∨ g.store.Reaches u t) :
    ∃ id ∈ (g.commonSources u).1, g.store.path id = path := by
  obtain ⟨-, -, -, hown⟩ := h
  have hlinked := hg.wellFormed.linked
  have htarget : path ∈ g.store.paths (g.store.merged t) :=
    (Store.mem_paths_merged hlinked).mpr (.inl hown)
  have hmerged : path ∈ g.store.paths (g.store.merged u) := by
    rcases hu with rfl | hu
    · exact htarget
    · exact Store.mem_paths_merged_of_reaches hlinked hu htarget
  have hids : (g.commonSources u).1 = g.store.merged u :=
    (Store.commonSources_spec hlinked hg.fresh u).1
  rw [hids]
  exact List.mem_map.mp hmerged

/-- Starting with nothing remembered, after any calls every list that is remembered is the one that
would be computed anew. When a run returns then, the merged lists of its target and of everything
that is compiled from it, directly or through others, have an entry for every output. -/
theorem remembered_after_calls [Environment] (hg : g.WellFormed)
    (hnone : ∀ t, (g.target t).sourceCache = none) (hcalls : Relation.ReflTransGen Call g g') :
    (∀ t ids, (g'.target t).sourceCache = some ids → ids = g'.store.recomputed t) ∧
      ∀ fs lister t r, (g'.run fs lister t).result = .ok r →
        ∀ u, u = t ∨ (g'.run fs lister t).graph.store.Reaches u t →
          ∀ file ∈ r.plan.generatedFiles,
            ∃ id ∈ ((g'.run fs lister t).graph.commonSources u).1,
              (g'.run fs lister t).graph.store.path id = file.path := by
  have hcoherent : g'.Coherent := (hg.coherent hnone).calls hcalls
  refine ⟨hcoherent.fresh, fun fs lister t r hr u hu file hfile => ?_⟩
  obtain ⟨-, -, hregistered⟩ := run_spec hcoherent.wellFormed hcoherent.fresh fs lister t
  exact ((hregistered r hr).2 file hfile).mem_commonSources (hcoherent.call (.run fs lister t)) hu

attribute [local instance] Environment.plain

/-- A target with moc enabled, which is compiled from nothing so far. -/
def mocTarget (name : String) : Target where
  name
  sourceDir := "/src"
  binaryDir := "/build"
  properties := { automoc := true }

/-- A program that is compiled from a library. -/
def programWithLibrary : Graph where
  settings := { sourceDir := "/src", binaryDir := "/build" }
  store := {
    sources := []
    targets := [{ mocTarget "base" with consumers := [1] },
      { mocTarget "app" with objectLibraries := [0] }] }

theorem wellFormed_programWithLibrary : programWithLibrary.WellFormed := by
  have hbase :
      ({ programWithLibrary with store := ⟨[], [mocTarget "base"]⟩ } : Graph).WellFormed := by
    have hnew : (ofSettings programWithLibrary.settings).newTarget (mocTarget "base") [] =
        .ok (0, { programWithLibrary with store := ⟨[], [mocTarget "base"]⟩ }) := rfl
    exact (wellFormed_ofSettings _).newTarget ⟨rfl, rfl⟩ (by simp [mocTarget]) (by simp) hnew
  have hnew : ({ programWithLibrary with store := ⟨[], [mocTarget "base"]⟩ } : Graph).newTarget
      (mocTarget "app") [0] = .ok (1, programWithLibrary) := rfl
  exact hbase.newTarget ⟨rfl, rfl⟩ (by simp [mocTarget]) (by simp) hnew

/-- The program's list is made from the library's, which is remembered as well. -/
theorem remembered_after_calls_programWithLibrary :
    programWithLibrary.WellFormed ∧ (∀ t, (programWithLibrary.target t).sourceCache = none) ∧
      Relation.ReflTransGen Call programWithLibrary (programWithLibrary.commonSources 1).2 ∧
      (∀ t ids, ((programWithLibrary.commonSources 1).2.target t).sourceCache = some ids →
        ids = (programWithLibrary.commonSources 1).2.store.recomputed t) := by
  have hnone (t : TargetId) : (programWithLibrary.target t).sourceCache = none := by
    match t with
    | 0 => rfl
    | 1 => rfl
    | t + 2 => rfl
  have hcalls :
      Relation.ReflTransGen Call programWithLibrary (programWithLibrary.commonSources 1).2 :=
    .single (.commonSources 1)
  exact ⟨wellFormed_programWithLibrary, hnone, hcalls,
    (remembered_after_calls wellFormed_programWithLibrary hnone hcalls).1⟩

end Autogen.Graph
