import Autogen.Plan.Emission
import Autogen.Proofs.Graph.Merged
import Mathlib.Data.Set.Basic

/-!
# Growth of a graph

What planning and carrying out plans makes of a graph, whatever the plans are and however often they
are made: targets get source entries for the planned outputs, entries with the paths of outputs are
marked, and steps are registered. Everything else that a plan is made from stays.

## Main definitions

* `Store.Grows`, `Graph.Grows` — a store and a graph that grow by outputs of some targets.
* `Graph.WellFormed`, `Graph.Fresh` — links in order with a sound index, and lists not out of date.

## Main statements

* `Graph.Grows.trans` — growth adds up.
* `Graph.WellFormed.grows` — growth keeps a graph well-formed.
* `Graph.Grows.part` — what growth leaves alone in the targets.
-/

namespace Autogen

/-- What planning leaves alone in a target. -/
def Target.frame (t : Target) : Target :=
  { t with sources := [], includeDirectories := [], utilities := .empty, sourceCache := none }

namespace Store

/-- A source entry whose path is an output and that is marked as one. -/
def IsOutput (s : Store) (outputs : Set String) (id : SourceId) : Prop :=
  id < s.sources.length ∧ s.path id ∈ outputs ∧ Graph.markOutput (s.source id) = s.source id

/-- A store that grows by outputs of the planned targets. -/
structure Grows (planned : Set TargetId) (outputs : Set String) (s s' : Store) : Prop where
  length_targets : s'.targets.length = s.targets.length
  frame : ∀ u, (s'.target u).frame = (s.target u).frame
  unplanned : ∀ u ∉ planned, (s'.target u).bare = (s.target u).bare
  length_sources : s.sources.length ≤ s'.sources.length
  source : ∀ id < s.sources.length, s'.source id = s.source id ∨
    s.path id ∈ outputs ∧ s'.source id = Graph.markOutput (s.source id)
  sources : ∀ u, ∃ added, (s'.target u).sources = (s.target u).sources ++ added ∧
    ∀ id ∈ added, s'.IsOutput outputs id

variable {planned planned' : Set TargetId} {outputs outputs' : Set String} {s s' s'' : Store}

/-- Stores that differ in what they remember. -/
theorem Grows.of_bare (h : s'.bare = s.bare) : s.Grows planned outputs s' := by
  obtain ⟨hsources, hlen, htarget⟩ := bare_eq_iff.mp h
  refine ⟨hlen, part_eq_of_bare Target.frame (fun _ => rfl) h, fun u _ => htarget u, ?_, ?_, ?_⟩
  · rw [hsources]
  · intro id _
    rw [source_of_bare h]
    exact .inl rfl
  · intro u
    refine ⟨[], ?_, by simp⟩
    rw [List.append_nil, part_eq_of_bare Target.sources (fun _ => rfl) h]

theorem Grows.refl (s : Store) : s.Grows planned outputs s :=
  .of_bare rfl

theorem Grows.mono (h : s.Grows planned outputs s') (hplanned : planned ⊆ planned')
    (houtputs : outputs ⊆ outputs') : s.Grows planned' outputs' s' where
  length_targets := h.length_targets
  frame := h.frame
  unplanned u hu := h.unplanned u fun hmem => hu (hplanned hmem)
  length_sources := h.length_sources
  source id hid := (h.source id hid).imp_right fun ⟨hpath, hmark⟩ => ⟨houtputs hpath, hmark⟩
  sources u := by
    obtain ⟨added, heq, hadded⟩ := h.sources u
    exact ⟨added, heq, fun id hid =>
      ⟨(hadded id hid).1, houtputs (hadded id hid).2.1, (hadded id hid).2.2⟩⟩

/-- The paths of source entries stay. -/
theorem Grows.path (h : s.Grows planned outputs s') {id : SourceId} (hid : id < s.sources.length) :
    s'.path id = s.path id := by
  rw [Store.path, Store.path]
  rcases h.source id hid with heq | ⟨-, heq⟩
  · rw [heq]
  · rw [heq]
    rfl

theorem Grows.sources_unplanned (h : s.Grows planned outputs s') {u : TargetId} (hu : u ∉ planned) :
    (s'.target u).sources = (s.target u).sources :=
  show (s'.target u).bare.sources = (s.target u).bare.sources by rw [h.unplanned u hu]

theorem Grows.isOutput (h : s.Grows planned outputs s') {id : SourceId}
    (hid : s.IsOutput outputs id) : s'.IsOutput outputs id := by
  obtain ⟨hlt, hpath, hmark⟩ := hid
  refine ⟨hlt.trans_le h.length_sources, by rwa [h.path hlt], ?_⟩
  rcases h.source id hlt with heq | ⟨-, heq⟩
  · rw [heq, hmark]
  · rw [heq, hmark, hmark]

theorem Grows.trans (h : s.Grows planned outputs s') (h' : s'.Grows planned outputs s'') :
    s.Grows planned outputs s'' where
  length_targets := h'.length_targets.trans h.length_targets
  frame u := (h'.frame u).trans (h.frame u)
  unplanned u hu := (h'.unplanned u hu).trans (h.unplanned u hu)
  length_sources := h.length_sources.trans h'.length_sources
  source id hid := by
    have hpath := h.path hid
    rcases h.source id hid with heq | ⟨hout, heq⟩ <;>
      rcases h'.source id (hid.trans_le h.length_sources) with heq' | ⟨hout', heq'⟩
    · exact .inl (heq'.trans heq)
    · exact .inr ⟨hpath ▸ hout', by rw [heq', heq]⟩
    · exact .inr ⟨hout, by rw [heq', heq]⟩
    · exact .inr ⟨hout, by rw [heq', heq]; rfl⟩
  sources u := by
    obtain ⟨added, heq, hadded⟩ := h.sources u
    obtain ⟨more, heq', hmore⟩ := h'.sources u
    refine ⟨added ++ more, by rw [heq', heq, List.append_assoc], fun id hid => ?_⟩
    rcases List.mem_append.mp hid with hid | hid
    · exact h'.isOutput (hadded id hid)
    · exact hmore id hid

/-! ### The operations that make a store grow -/

theorem grows_modifyTarget {t : TargetId} (ht : t ∈ planned) {f : Target → Target}
    (hframe : ∀ x, (f x).frame = x.frame) (hsources : ∀ x, (f x).sources = x.sources) :
    s.Grows planned outputs (s.modifyTarget t f) where
  length_targets := length_targets_modifyTarget s t f
  frame := part_modifyTarget Target.frame hframe s t
  unplanned u hu := by
    rw [target_modifyTarget, if_neg]
    rintro ⟨rfl, -⟩
    exact hu ht
  length_sources := le_rfl
  source _ _ := .inl rfl
  sources u := ⟨[], by rw [List.append_nil, part_modifyTarget Target.sources hsources], by simp⟩

theorem source_newSource (entry : SourceFile) {id : SourceId} (hid : id < s.sources.length) :
    (s.newSource entry).2.source id = s.source id := by
  simp [newSource, source, List.getD_eq_getElem?_getD, List.getElem?_append_left hid]

theorem grows_newSource (entry : SourceFile) : s.Grows planned outputs (s.newSource entry).2 where
  length_targets := rfl
  frame _ := rfl
  unplanned _ _ := rfl
  length_sources := by simp [newSource]
  source _ hid := .inl (source_newSource entry hid)
  sources u := ⟨[], by rw [List.append_nil]; rfl, by simp⟩

theorem grows_markOutput {id : SourceId} (hpath : s.path id ∈ outputs) :
    s.Grows planned outputs (s.modifySource id Graph.markOutput) where
  length_targets := rfl
  frame _ := rfl
  unplanned _ _ := rfl
  length_sources := by simp [modifySource]
  source other _ := by
    rw [source_modifySource]
    split
    · rename_i heq
      exact .inr ⟨heq.1 ▸ hpath, rfl⟩
    · exact .inl rfl
  sources u := ⟨[], by rw [List.append_nil]; rfl, by simp⟩

theorem isOutput_markOutput {id : SourceId} (hid : id < s.sources.length)
    (hpath : s.path id ∈ outputs) : (s.modifySource id Graph.markOutput).IsOutput outputs id := by
  have hsource :
      (s.modifySource id Graph.markOutput).source id = Graph.markOutput (s.source id) := by
    rw [source_modifySource, if_pos ⟨rfl, hid⟩]
  refine ⟨by simpa [modifySource] using hid, ?_, ?_⟩
  · rw [path, hsource]
    exact hpath
  · rw [hsource]
    rfl

/-- An entry is added unless there is one with its path. -/
theorem addSource_cases (s : Store) (t : TargetId) (id : SourceId) :
    s.path id ∈ s.paths (s.target t).sources ∧ (s.addSource t id).2 = s ∨
      s.path id ∉ s.paths (s.target t).sources ∧
        (s.addSource t id).2 = s.modifyTarget t fun x =>
          { x with sources := x.sources ++ [id] } := by
  unfold addSource findPath?
  split
  · rename_i present hfind
    refine .inl ⟨List.mem_map.mpr ⟨present, List.mem_of_find?_eq_some hfind, ?_⟩, rfl⟩
    simpa using List.find?_some hfind
  · rename_i hfind
    refine .inr ⟨fun hmem => ?_, rfl⟩
    obtain ⟨present, hpresent, hpath⟩ := List.mem_map.mp hmem
    simpa [hpath] using List.find?_eq_none.mp hfind present hpresent

/-- A part of the targets that has nothing to do with their sources. -/
theorem part_addSource {α : Type} (part : Target → α)
    (hpart : ∀ x ids, part { x with sources := ids } = part x) (s : Store)
    (t : TargetId) (id : SourceId) (u : TargetId) :
    part ((s.addSource t id).2.target u) = part (s.target u) := by
  rcases s.addSource_cases t id with ⟨-, heq⟩ | ⟨-, heq⟩
  · rw [heq]
  · rw [heq]
    exact part_modifyTarget part (fun x => hpart x _) s t u

/-- An entry of the store can be added to a target. -/
theorem Linked.addSource (h : s.Linked) (t : TargetId) {id : SourceId}
    (hid : id < s.sources.length) :
    (s.addSource t id).2.Linked := by
  refine h.congr ?_ (part_addSource _ (fun _ _ => rfl) s t id)
    (part_addSource _ (fun _ _ => rfl) s t id) ?_
  · rcases s.addSource_cases t id with ⟨-, heq⟩ | ⟨-, heq⟩ <;> simp [heq]
  · intro u other hother
    rcases s.addSource_cases t id with ⟨-, heq⟩ | ⟨-, heq⟩
    · rw [heq] at hother ⊢
      exact h.source_lt u other hother
    · rw [heq, target_modifyTarget] at hother
      rw [heq]
      split at hother
      · rcases List.mem_append.mp hother with hold | hnew
        · exact h.source_lt u other hold
        · rw [List.mem_singleton.mp hnew]
          exact hid
      · exact h.source_lt u other hother

theorem grows_addSource {t : TargetId} (ht : t ∈ planned) {id : SourceId}
    (hid : s.IsOutput outputs id) : s.Grows planned outputs (s.addSource t id).2 := by
  rcases s.addSource_cases t id with ⟨-, heq⟩ | ⟨-, heq⟩
  · rw [heq]
    exact .refl s
  · rw [heq]
    refine ⟨length_targets_modifyTarget s t _, fun u => ?_, fun u hu => ?_, le_rfl,
      fun _ _ => .inl rfl, fun u => ?_⟩
    · rw [target_modifyTarget]
      split <;> rfl
    · rw [target_modifyTarget, if_neg]
      rintro ⟨rfl, -⟩
      exact hu ht
    · rw [target_modifyTarget]
      split
      · refine ⟨[id], rfl, fun other hother => ?_⟩
        rw [List.mem_singleton.mp hother]
        exact hid
      · exact ⟨[], by simp, by simp⟩

end Store

namespace Graph

/-- Links in order, and an index that knows entries by their paths. -/
structure WellFormed (g : Graph) : Prop where
  linked : g.store.Linked
  index : ∀ path id, g.sourceIndex.get? path = some id →
    id < g.store.sources.length ∧ g.store.path id = path

/-- Every merged source list that is remembered is the one that would be computed anew. -/
def Fresh (g : Graph) : Prop :=
  g.store.Fresh

/-- A graph that grows by outputs of the planned targets and their steps. -/
structure Grows (planned : Set TargetId) (outputs : Set String) (g g' : Graph) : Prop where
  store : g.store.Grows planned outputs g'.store
  settings : g'.settings = g.settings
  targets : g'.targets = g.targets
  importedTargets : g'.importedTargets = g.importedTargets
  index : ∀ path id, g'.sourceIndex.get? path = some id →
    g.sourceIndex.get? path = some id ∨
      id < g'.store.sources.length ∧ g'.store.path id = path
  indexed : ∀ path id, g.sourceIndex.get? path = some id → g'.sourceIndex.get? path = some id
  steps : ∀ name, g.utilitySteps.contains name → g'.utilitySteps.contains name
  newSteps : ∀ name, g'.utilitySteps.contains name → g.utilitySteps.contains name ∨
    ∃ u ∈ planned, name = (g.target u).autogenName

variable {planned planned' : Set TargetId} {outputs outputs' : Set String} {g g' g'' : Graph}

/-- Graphs whose stores alone differ. -/
theorem Grows.of_store {store : Store} (h : g.store.Grows planned outputs store) :
    g.Grows planned outputs { g with store } where
  store := h
  settings := rfl
  targets := rfl
  importedTargets := rfl
  index _ _ := .inl
  indexed _ _ := id
  steps _ := id
  newSteps _ := .inl

theorem Grows.refl (g : Graph) : g.Grows planned outputs g :=
  .of_store (.refl g.store)

theorem Grows.mono (h : g.Grows planned outputs g') (hplanned : planned ⊆ planned')
    (houtputs : outputs ⊆ outputs') : g.Grows planned' outputs' g' where
  store := h.store.mono hplanned houtputs
  settings := h.settings
  targets := h.targets
  importedTargets := h.importedTargets
  index := h.index
  indexed := h.indexed
  steps := h.steps
  newSteps name hname :=
    (h.newSteps name hname).imp_right fun ⟨u, hu, heq⟩ => ⟨u, hplanned hu, heq⟩

theorem Grows.of_empty (h : g.Grows ∅ ∅ g') : g.Grows planned outputs g' :=
  h.mono (Set.empty_subset planned) (Set.empty_subset outputs)

/-- A part of the targets that planning leaves alone. -/
theorem Grows.part {α : Type} (part : Target → α) (hframe : ∀ x, part x.frame = part x)
    (h : g.Grows planned outputs g') (u : TargetId) : part (g'.target u) = part (g.target u) := by
  rw [← hframe, ← hframe (g.target u)]
  exact congrArg part (h.store.frame u)

theorem Grows.trans (h : g.Grows planned outputs g') (h' : g'.Grows planned outputs g'') :
    g.Grows planned outputs g'' where
  store := h.store.trans h'.store
  settings := h'.settings.trans h.settings
  targets := h'.targets.trans h.targets
  importedTargets := h'.importedTargets.trans h.importedTargets
  index path id hid := by
    rcases h'.index path id hid with hold | hnew
    · rcases h.index path id hold with hold | ⟨hlt, hpath⟩
      · exact .inl hold
      · exact .inr ⟨hlt.trans_le h'.store.length_sources, (h'.store.path hlt).trans hpath⟩
    · exact .inr hnew
  indexed path id hid := h'.indexed path id (h.indexed path id hid)
  steps name hname := h'.steps name (h.steps name hname)
  newSteps name hname := by
    rcases h'.newSteps name hname with hold | ⟨u, hu, heq⟩
    · exact h.newSteps name hold
    · exact .inr ⟨u, hu, heq.trans (h.part Target.autogenName (fun _ => rfl) u)⟩

theorem Grows.uses (h : g.Grows planned outputs g') : g'.store.Uses = g.store.Uses := by
  funext t u
  exact congrArg (u ∈ ·) (h.part Target.objectLibraries (fun _ => rfl) t)

/-- Growth keeps a graph well-formed. -/
theorem WellFormed.grows (hg : g.WellFormed) (h : g.Grows planned outputs g') : g'.WellFormed where
  linked := by
    refine hg.linked.congr h.store.length_targets (h.part _ fun _ => rfl) (h.part _ fun _ => rfl) ?_
    intro t id hid
    obtain ⟨added, heq, hadded⟩ := h.store.sources t
    rw [heq] at hid
    rcases List.mem_append.mp hid with hid | hid
    · exact (hg.linked.source_lt t id hid).trans_le h.store.length_sources
    · exact (hadded id hid).1
  index path id hid := by
    rcases h.index path id hid with hold | hnew
    · obtain ⟨hlt, hpath⟩ := hg.index path id hold
      exact ⟨hlt.trans_le h.store.length_sources, (h.store.path hlt).trans hpath⟩
    · exact hnew

/-! ### How graphs come about -/

/-- A graph without links is well-formed if the sources of its targets are entries of the store. -/
theorem wellFormed_of_unlinked
    (hlinks : ∀ x ∈ g.store.targets, x.objectLibraries = [] ∧ x.consumers = [])
    (hsources : ∀ x ∈ g.store.targets, ∀ id ∈ x.sources, id < g.store.sources.length)
    (hindex : g.sourceIndex = .empty) : g.WellFormed := by
  refine ⟨Store.linked_of_unlinked hlinks hsources, fun path id hid => ?_⟩
  rw [hindex] at hid
  cases hid

/-- Lists are fresh where none is remembered. -/
theorem fresh_of_unremembered (h : ∀ x ∈ g.store.targets, x.sourceCache = none) : g.Fresh := by
  intro t ids hids
  rcases Store.target_mem_or_default g.store t with hmem | hdefault
  · rw [h _ hmem] at hids
    cases hids
  · rw [hdefault] at hids
    cases hids

theorem wellFormed_ofSettings (settings : ProjectSettings) : (ofSettings settings).WellFormed :=
  wellFormed_of_unlinked (by simp [ofSettings, Store.empty]) (by simp [ofSettings, Store.empty]) rfl

/-- What an accepted link does to a graph. -/
theorem linkLibrary_eq_ok {t library : TargetId} (h : g.linkLibrary t library = .ok g') :
    ∃ store, g.store.linkLibrary t library = .ok store ∧ g' = { g with store } := by
  unfold Graph.linkLibrary at h
  split at h
  · rename_i store hlink
    cases h
    exact ⟨store, hlink, rfl⟩
  · cases h

theorem WellFormed.linkLibrary {t library : TargetId} (hg : g.WellFormed)
    (ht : t < g.store.targets.length) (hlibrary : library < g.store.targets.length)
    (h : g.linkLibrary t library = .ok g') : g'.WellFormed := by
  obtain ⟨store, hlink, rfl⟩ := linkLibrary_eq_ok h
  refine ⟨hg.linked.linkLibrary ht hlibrary hlink, fun path id hid => ?_⟩
  have hsources := (Store.sizes_linkLibrary hlink).1
  rw [Store.path, Store.source, hsources]
  exact hg.index path id hid

theorem WellFormed.linkLibraries {t : TargetId} {libraries : List TargetId} (hg : g.WellFormed)
    (ht : t < g.store.targets.length) (hlibraries : ∀ l ∈ libraries, l < g.store.targets.length)
    (h : libraries.foldlM (·.linkLibrary t) g = .ok g') : g'.WellFormed := by
  induction libraries generalizing g with
  | nil =>
    cases h
    exact hg
  | cons library rest ih =>
    rw [List.foldlM_cons] at h
    cases hlink : g.linkLibrary t library with
    | error fault =>
      rw [hlink] at h
      cases h
    | ok linked =>
      rw [hlink] at h
      have hlen : linked.store.targets.length = g.store.targets.length := by
        obtain ⟨store, hstore, rfl⟩ := linkLibrary_eq_ok hlink
        exact (Store.sizes_linkLibrary hstore).2
      refine ih (hg.linkLibrary ht (hlibraries library List.mem_cons_self) hlink) (hlen ▸ ht) ?_ h
      intro l hl
      rw [hlen]
      exact hlibraries l (List.mem_cons_of_mem _ hl)

/-- A new target that is compiled from targets of the graph keeps the graph well-formed. -/
theorem WellFormed.newTarget {x : Target} {libraries : List TargetId} {id : TargetId}
    (hg : g.WellFormed) (hplain : x.objectLibraries = [] ∧ x.consumers = [])
    (hsources : ∀ id ∈ x.sources, id < g.store.sources.length)
    (hlibraries : ∀ l ∈ libraries, l < g.store.targets.length)
    (h : g.newTarget x libraries = .ok (id, g')) : g'.WellFormed := by
  have hadded : ({ g with store := (g.store.newTarget x).2 } : Graph).WellFormed :=
    ⟨hg.linked.newTarget hplain.1 hplain.2 hsources, hg.index⟩
  have hlen : (g.store.newTarget x).2.targets.length = g.store.targets.length + 1 := by
    simp [Store.newTarget]
  unfold Graph.newTarget at h
  cases hlink : libraries.foldlM (·.linkLibrary g.store.targets.length)
      { g with store := (g.store.newTarget x).2 } with
  | error fault =>
    simp only [Store.newTarget] at h hlink
    rw [hlink] at h
    cases h
  | ok linked =>
    simp only [Store.newTarget] at h hlink
    rw [hlink] at h
    cases h
    refine hadded.linkLibraries ?_ (fun l hl => ?_) hlink
    · rw [hlen]
      exact Nat.lt_succ_self _
    · rw [hlen]
      exact (hlibraries l hl).trans (Nat.lt_succ_self _)

end Graph

end Autogen
