import Autogen.Proofs.Firsts
import Autogen.Proofs.Graph.Linking
import Autogen.Proofs.Graph.Sources

/-!
# The flat merged list

The merged source list of a target is made from the merged lists of its libraries, each of which has
lost the paths that came up twice in it, and some of which are remembered. What comes out is
nevertheless what a single pass gives: the sources of the target and of everything on the walk
through its libraries, of which the first one counts for each path.

## Main definitions

* `Store.Built` — the stores that calls make out of nothing.
* `Store.Tidy` — links in order, and no path twice among the sources of a target itself.
* `Store.walked` — the sources of a target and of the libraries on the walk, with all repetitions.
* `Store.Flattens` — what a merged list has to be.

## Main statements

* `Store.Built.tidy` — calls keep a store tidy.
* `Store.foldl_mergeSources_firstsBy` — dropping repetitions in between makes no difference in the
  end.
* `Store.flattens_commonSources` — every merged list is the flat one.
-/

namespace Autogen.Store

variable {s : Store} {t library : TargetId}

/-! ## Building -/

/-- The stores that calls make out of nothing. A target comes without sources and libraries, which
are added one by one; a library that would close a cycle is refused. Lists are merged, remembered
and forgotten in between, and what else there is of sources and targets changes at will. -/
inductive Built : Store → Prop
  | empty : Built empty
  | newSource {s : Store} (h : Built s) (entry : SourceFile) : Built (s.newSource entry).2
  | newTarget {s : Store} (h : Built s) (x : Target) (hsources : x.sources = [])
      (hlinks : x.objectLibraries = [] ∧ x.consumers = []) : Built (s.newTarget x).2
  | addSource {s : Store} (h : Built s) (t : TargetId) (id : SourceId)
      (hid : id < s.sources.length) :
      Built (s.addSource t id).2
  | linkLibrary {s : Store} (h : Built s) (t library : TargetId) (ht : t < s.targets.length)
      (hlibrary : library < s.targets.length) : Built (s.tryLink (t, library))
  | commonSources {s : Store} (h : Built s) (t : TargetId) : Built (s.commonSources t).2
  | clearSources {s : Store} (h : Built s) (t : TargetId) : Built (s.clearSources t)
  | modifySource {s : Store} (h : Built s) (id : SourceId) (f : SourceFile → SourceFile)
      (hpath : ∀ entry, (f entry).path = entry.path) : Built (s.modifySource id f)
  | modifyTarget {s : Store} (h : Built s) (t : TargetId) (f : Target → Target)
      (hsources : ∀ x, (f x).sources = x.sources)
        (hlibraries : ∀ x, (f x).objectLibraries = x.objectLibraries)
      (hconsumers : ∀ x, (f x).consumers = x.consumers) : Built (s.modifyTarget t f)

/-- Links in order, and no path twice among the sources that a target has itself. -/
structure Tidy (s : Store) : Prop where
  linked : s.Linked
  distinct : ∀ t, (s.paths (s.target t).sources).Nodup

/-- Where targets keep their sources, and sources their paths, no path comes up twice. -/
theorem Tidy.of_linked {s' : Store} (h : s.Tidy) (hlinked : s'.Linked)
    (hsources : ∀ t, (s'.target t).sources = (s.target t).sources)
    (hpath : ∀ id < s.sources.length, s'.path id = s.path id) : s'.Tidy := by
  refine ⟨hlinked, fun t => ?_⟩
  have hsame : s'.paths (s'.target t).sources = s.paths (s.target t).sources := by
    rw [hsources]
    exact List.map_congr_left fun id hid => hpath id (h.linked.source_lt t id hid)
  exact hsame ▸ h.distinct t

theorem Tidy.of_bare {s' : Store} (h : s.Tidy) (hbare : s'.bare = s.bare) : s'.Tidy := by
  refine h.of_linked (h.linked.of_bare hbare) ?_ ?_
  · exact part_eq_of_bare Target.sources (fun _ => rfl) hbare
  · intro id _
    rw [path_of_bare hbare]

theorem Tidy.newSource (h : s.Tidy) (entry : SourceFile) : (s.newSource entry).2.Tidy := by
  refine h.of_linked ?_ (fun _ => rfl) ?_
  · refine h.linked.congr rfl (fun _ => rfl) (fun _ => rfl) ?_
    intro t id hid
    exact (h.linked.source_lt t id hid).trans_le (by simp [Store.newSource])
  · intro id hid
    rw [path, path, source_newSource entry hid]

theorem Tidy.newTarget (h : s.Tidy) {x : Target} (hsources : x.sources = [])
    (hlinks : x.objectLibraries = [] ∧ x.consumers = []) : (s.newTarget x).2.Tidy := by
  refine ⟨h.linked.newTarget hlinks.1 hlinks.2 (by simp [hsources]), fun t => ?_⟩
  rw [target_newTarget]
  split
  · rw [hsources]
    exact List.nodup_nil
  · exact h.distinct t

/-- A source is added only if no other one of the target has its path. -/
theorem Tidy.addSource (h : s.Tidy) (t : TargetId) {id : SourceId} (hid : id < s.sources.length) :
    (s.addSource t id).2.Tidy := by
  refine ⟨h.linked.addSource t hid, fun u => ?_⟩
  obtain ⟨-, heq⟩ | ⟨hnew, heq⟩ := s.addSource_cases t id
  · rw [heq]
    exact h.distinct u
  · rw [heq, target_modifyTarget]
    split
    · rename_i hut
      obtain ⟨rfl, -⟩ := hut
      have happend :
          s.paths ((s.target t).sources ++ [id]) = s.paths (s.target t).sources ++ [s.path id] :=
        List.map_append
      exact happend ▸ nodup_snoc (h.distinct t) hnew
    · exact h.distinct u

theorem Tidy.tryLink (h : s.Tidy) (ht : t < s.targets.length)
    (hlibrary : library < s.targets.length) :
    (s.tryLink (t, library)).Tidy := by
  have hlinked := h.linked.tryLink ht hlibrary
  obtain heq | ⟨-, -, -, heq⟩ := s.tryLink_cases t library
  · rwa [heq]
  · have hbare : (s.tryLink (t, library)).bare = (s.addLink t library).bare :=
      heq ▸ bare_clearSources _ t
    refine h.of_linked hlinked (fun u => ?_) fun id _ => ?_
    · rw [part_eq_of_bare Target.sources (fun _ => rfl) hbare, target_addLink ht hlibrary]
    · rw [path_of_bare hbare]
      rfl

theorem Tidy.modifySource (h : s.Tidy) (id : SourceId) {f : SourceFile → SourceFile}
    (hpath : ∀ entry, (f entry).path = entry.path) : (s.modifySource id f).Tidy := by
  refine h.of_linked ?_ (fun _ => rfl) ?_
  · refine h.linked.congr rfl (fun _ => rfl) (fun _ => rfl) ?_
    intro t other hother
    simpa [Store.modifySource] using h.linked.source_lt t other hother
  · intro other _
    rw [path, path, source_modifySource]
    split
    · exact hpath _
    · rfl

theorem Tidy.modifyTarget (h : s.Tidy) (t : TargetId) {f : Target → Target}
    (hsources : ∀ x, (f x).sources = x.sources)
    (hlibraries : ∀ x, (f x).objectLibraries = x.objectLibraries)
    (hconsumers : ∀ x, (f x).consumers = x.consumers) : (s.modifyTarget t f).Tidy := by
  have hsame := part_modifyTarget Target.sources hsources s t
  refine h.of_linked ?_ hsame (fun _ _ => rfl)
  refine h.linked.congr (length_targets_modifyTarget s t f) (part_modifyTarget _ hlibraries s t)
    (part_modifyTarget _ hconsumers s t) ?_
  intro u id hid
  rw [hsame] at hid
  exact h.linked.source_lt u id hid

/-- Calls keep a store tidy. -/
theorem Built.tidy (h : s.Built) : s.Tidy := by
  induction h with
  | empty => exact ⟨linked_of_unlinked (by simp [Store.empty]) (by simp [Store.empty]),
      fun _ => List.nodup_nil⟩
  | newSource _ entry ih => exact ih.newSource entry
  | newTarget _ x hsources hlinks ih => exact ih.newTarget hsources hlinks
  | addSource _ t id hid ih => exact ih.addSource t hid
  | linkLibrary _ t library ht hlibrary ih => exact ih.tryLink ht hlibrary
  | commonSources _ t ih => exact ih.of_bare (bare_commonSources _ t)
  | clearSources _ t ih => exact ih.of_bare (bare_clearSources _ t)
  | modifySource _ id f hpath ih => exact ih.modifySource id hpath
  | modifyTarget _ t f hsources hlibraries hconsumers ih =>
    exact ih.modifyTarget t hsources hlibraries hconsumers

theorem Built.addNewSources (h : s.Built) (t : TargetId) (entries : List SourceFile) :
    (s.addNewSources t entries).Built := by
  induction entries generalizing s with
  | nil => exact h
  | cons entry rest ih =>
      exact ih ((h.newSource entry).addSource t s.sources.length (by simp [Store.newSource]))

theorem Built.links {links : List (TargetId × TargetId)} (h : s.Built)
    (hlinks : ∀ link ∈ links, link.1 < s.targets.length ∧ link.2 < s.targets.length) :
    (links.foldl tryLink s).Built := by
  induction links generalizing s with
  | nil => exact h
  | cons link rest ih =>
    obtain ⟨ht, hlibrary⟩ := hlinks link List.mem_cons_self
    refine ih (h.linkLibrary link.1 link.2 ht hlibrary) ?_
    intro other hother
    rw [length_targets_tryLink]
    exact hlinks other (List.mem_cons_of_mem _ hother)

/-! ## Merging and repetitions -/

/-- Merging into a list without repetitions keeps the first source for each path. -/
theorem mergeSources_eq_firstsBy {merged : List SourceId} (h : (s.paths merged).Nodup)
    (later : List SourceId) : s.mergeSources merged later = firstsBy s.path (merged ++ later) := by
  induction later using List.reverseRecOn with
  | nil => exact (firstsBy_of_nodup h).symm.trans (by rw [List.append_nil])
  | append_singleton later id ih =>
    have hstep : s.mergeSources merged (later ++ [id]) =
        if s.path id ∈ (s.mergeSources merged later).map s.path then s.mergeSources merged later
        else s.mergeSources merged later ++ [id] := List.foldl_append
    rw [hstep, ih, ← List.append_assoc, firstsBy_concat]
    simp only [mem_map_firstsBy]

/-- Lists are merged in turn as if they were put together, whether or not each of them has lost its
own repetitions before. -/
theorem foldl_mergeSources_firstsBy {own : List SourceId} (h : (s.paths own).Nodup)
    (flat : TargetId → List SourceId) (libraries : List TargetId) :
    libraries.foldl
        (fun merged library => s.mergeSources merged (firstsBy s.path (flat library))) own =
      firstsBy s.path (own ++ libraries.flatMap flat) := by
  induction libraries using List.reverseRecOn with
  | nil => exact (firstsBy_of_nodup h).symm.trans (by rw [List.flatMap_nil, List.append_nil])
  | append_singleton libraries library ih =>
    have hnodup := nodup_map_firstsBy s.path (own ++ libraries.flatMap flat)
    rw [List.foldl_append, List.foldl_cons, List.foldl_nil, ih, mergeSources_eq_firstsBy hnodup,
      firstsBy_append_firstsBy, firstsBy_firstsBy_append, List.flatMap_append,
      List.flatMap_singleton,
      List.append_assoc]

/-! ## The walk -/

/-- The sources of a target followed by those of the libraries on the walk through them, each
library as often as it is reached. -/
def walked (s : Store) (t : TargetId) : List SourceId :=
  (s.target t).sources ++ (s.libraries t).flatMap fun library => (s.target library).sources

/-- On the walk each library is followed by those that it is compiled from itself. -/
theorem Linked.libraries_eq (h : s.Linked) (t : TargetId) :
    s.libraries t = (s.target t).objectLibraries.flatMap fun library =>
      library :: s.libraries library := by
  obtain ⟨rank, hrank, hle⟩ := h.exists_rank
  exact librariesWithin_stable hrank (hle t) (Nat.le_succ_of_le (hle t))

/-- Down to every depth, the merged list is that of the walk. -/
theorem Tidy.mergedWithin_eq (h : s.Tidy) (depth : Nat) (t : TargetId) :
    s.mergedWithin depth t = firstsBy s.path ((s.target t).sources ++
      (s.librariesWithin depth t).flatMap fun library => (s.target library).sources) := by
  induction depth generalizing t with
  | zero =>
    rw [librariesWithin, List.flatMap_nil, List.append_nil]
    exact (firstsBy_of_nodup (h.distinct t)).symm
  | succ depth ih =>
    rw [mergedWithin, librariesWithin, List.flatMap_assoc]
    simp only [ih]
    exact foldl_mergeSources_firstsBy (h.distinct t) _ _

/-- What a merged list has to be: the first source for each path on the walk. The walk goes into
depth, the target's own sources come first, no path comes up twice and none that can be reached is
lost. -/
structure Flattens (s : Store) (t : TargetId) (merged : List SourceId) : Prop where
  flat : merged = firstsBy s.path (s.walked t)
  walk : s.libraries t = (s.target t).objectLibraries.flatMap fun library =>
    library :: s.libraries library
  own : (s.target t).sources <+: merged
  distinct : (s.paths merged).Nodup
  complete : ∀ p, p ∈ s.paths merged ↔
    ∃ u, (u = t ∨ s.Reaches t u) ∧ p ∈ s.paths (s.target u).sources

theorem Tidy.flattens (h : s.Tidy) (t : TargetId) :
    s.Flattens t (firstsBy s.path (s.walked t)) where
  flat := rfl
  walk := h.linked.libraries_eq t
  own := by
    rw [walked, firstsBy_append, firstsBy_of_nodup (h.distinct t)]
    exact List.prefix_append _ _
  distinct := nodup_map_firstsBy s.path _
  complete p := by
    rw [paths, mem_map_firstsBy, walked, List.map_append, List.mem_append,
      List.map_flatMap, List.mem_flatMap]
    simp only [mem_libraries h.linked, or_and_right, exists_or, exists_eq_left]
    rfl

/-- Whatever was called, the merged list of a target is the flat one as long as no list that is
remembered is out of date. -/
theorem flattens_commonSources (h : s.Built) (hfresh : s.Fresh) (t : TargetId) :
    s.Flattens t (s.commonSources t).1 := by
  have hmerged : (s.commonSources t).1 = s.merged t := (commonSources_spec h.tidy.linked hfresh t).1
  have hflat : s.merged t = firstsBy s.path (s.walked t) :=
    h.tidy.mergedWithin_eq s.targets.length t
  rw [hmerged, hflat]
  exact h.tidy.flattens t

/-- The store with one more target, which has the given sources. -/
def declareTarget (s : Store) (name : String) (entries : List SourceFile) : Store :=
  (s.newTarget { name, sourceDir := "/src", binaryDir := "/build" }).2.addNewSources
  s.targets.length entries

/-- A program and three libraries, of which two declare a source with the same path. Moc is to skip
only one of them. -/
def pieces : Store :=
  let base := empty.declareTarget "base" [{ path := "/src/base.cpp" }]
  let left := base.declareTarget "left" [{ path := "/src/shared.cpp", skipAutomoc := true }]
  let right :=
    left.declareTarget "right" [{ path := "/src/shared.cpp" }, { path := "/src/base.cpp" }]
  right.declareTarget "app" [{ path := "/src/main.cpp" }]

/-- The program compiled from two of the libraries, which are both compiled from the third one. -/
def diamond : Store :=
  [(1, 0), (2, 0), (3, 1), (3, 2)].foldl tryLink pieces

theorem built_diamond : diamond.Built := by
  have hdeclare {s : Store} (h : s.Built) (name : String) (entries : List SourceFile) :
      (s.declareTarget name entries).Built :=
    (h.newTarget _ rfl ⟨rfl, rfl⟩).addNewSources s.targets.length entries
  have hpieces : pieces.Built := by
    unfold pieces
    iterate 4 apply hdeclare
    exact .empty
  have hlinks : ∀ link ∈ [(1, 0), (2, 0), (3, 1), (3, 2)],
      link.1 < pieces.targets.length ∧ link.2 < pieces.targets.length := by decide +kernel
  exact hpieces.links hlinks

/-- Nothing is remembered so far. The sources that the libraries have in common come up once, the
first one of those with the shared path being the one that moc skips. -/
theorem flattens_commonSources_diamond :
    diamond.Built ∧ diamond.Fresh ∧ diamond.Flattens 3 (diamond.commonSources 3).1 ∧
      (diamond.commonSources 3).1 = [4, 1, 0] ∧ diamond.walked 3 = [4, 1, 0, 2, 3, 0] := by
  have hfresh : diamond.Fresh := by
    intro t ids hids
    obtain hmem | hdefault := target_mem_or_default diamond t
    · have hnone : ∀ x ∈ diamond.targets, x.sourceCache = none := by decide +kernel
      rw [hnone _ hmem] at hids
      cases hids
    · rw [hdefault] at hids
      cases hids
  exact ⟨built_diamond, hfresh, flattens_commonSources built_diamond hfresh 3, by decide +kernel,
    by decide +kernel⟩

end Autogen.Store
