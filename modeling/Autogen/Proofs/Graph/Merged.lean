import Autogen.Proofs.Graph.Links
import Mathlib.Data.List.Basic
import Mathlib.Data.List.GetD

/-!
# Merged source lists

The merged source list of a target as a function of the sources and the links alone, and the lists
that targets remember measured against it.

## Main definitions

* `Store.mapTargets` — the store with every target changed in the same way.
* `Store.bare` — the store without the lists that targets remember.
* `Store.merged` — the merged source list of a target, with nothing remembered on the way.
* `Store.recomputed`, `Store.Fresh` — the list computed anew, and lists that are not out of date.

## Main statements

* `commonSources_spec` — from fresh lists the merged list is computed, and the lists stay fresh.
* `fresh_iff` — a list is fresh when it is the merged one.
* `mem_paths_merged_of_reaches` — no path of a target's library is lost.
-/

namespace Autogen.Store

/-! ## Stores with other targets -/

/-- The store with every target changed in the same way. -/
def mapTargets (f : Target → Target) (s : Store) : Store :=
  { s with targets := s.targets.map f }

theorem target_mapTargets {f : Target → Target} (hdefault : f default = default)
    (s : Store) (t : TargetId) :
    (s.mapTargets f).target t = f (s.target t) := by
  rw [target, target, ← hdefault, mapTargets, List.getD_map, hdefault]

/-- A change of one target comes before or after that of all. -/
theorem mapTargets_modifyTarget {f h h' : Target → Target} (hcomm : ∀ x, f (h x) = h' (f x))
    (s : Store) (t : TargetId) :
    (s.modifyTarget t h).mapTargets f = (s.mapTargets f).modifyTarget t h' := by
  have htargets : (s.targets.modify t h).map f = (s.targets.map f).modify t h' := by
    apply List.ext_getElem?
    intro u
    by_cases htu : t = u <;> cases hu : s.targets[u]? <;> simp [htu, hu, hcomm]
  simp [mapTargets, modifyTarget, htargets]

/-! ## Stores without remembered lists -/

/-- The store without the merged source lists that targets remember. -/
def bare (s : Store) : Store :=
  { s with targets := s.targets.map Target.bare }

theorem target_bare (s : Store) (t : TargetId) : s.bare.target t = (s.target t).bare :=
  target_mapTargets rfl s t

@[simp] theorem sources_bare (s : Store) : s.bare.sources = s.sources := rfl

@[simp] theorem path_bare (s : Store) : s.bare.path = s.path := rfl

@[simp] theorem length_targets_bare (s : Store) : s.bare.targets.length = s.targets.length := by
  simp [bare]

@[simp] theorem bare_bare (s : Store) : s.bare.bare = s.bare := by
  simp [bare, Target.bare]

/-- Stores are the same up to what they remember if their sources and their targets are. -/
theorem bare_eq_iff {s s' : Store} :
    s'.bare = s.bare ↔ s'.sources = s.sources ∧ s'.targets.length = s.targets.length ∧
      ∀ t, (s'.target t).bare = (s.target t).bare := by
  constructor
  · intro h
    refine ⟨by rw [← sources_bare s', h, sources_bare], ?_, ?_⟩
    · rw [← length_targets_bare s', h, length_targets_bare]
    · intro t
      rw [← target_bare, h, target_bare]
  · rintro ⟨hsources, hlen, htarget⟩
    have htargets : s'.bare.targets = s.bare.targets := by
      apply List.ext_getElem (by simpa using hlen)
      intro t ht ht'
      have hget (r : Store) (hr : t < r.bare.targets.length) :
          r.bare.targets[t] = r.bare.target t := by
        rw [target, List.getD_eq_getElem _ _ hr]
      rw [hget, hget, target_bare, target_bare, htarget]
    rw [bare, bare] at *
    simp only [mk.injEq]
    exact ⟨hsources, htargets⟩

theorem bare_modifyTarget {f : Target → Target} (hf : ∀ x, (f x).bare = x.bare) (s : Store)
    (t : TargetId) : (s.modifyTarget t f).bare = s.bare :=
  bare_eq_iff.mpr ⟨rfl, length_targets_modifyTarget s t f, part_modifyTarget Target.bare hf s t⟩

theorem bare_forget (s : Store) (ts : List TargetId) : (s.forget ts).bare = s.bare := by
  refine bare_eq_iff.mpr ⟨sources_forget s ts, length_targets_forget s ts, fun t => ?_⟩
  rw [target_forget]
  split <;> rfl

theorem bare_clearSources (s : Store) (t : TargetId) : (s.clearSources t).bare = s.bare :=
  bare_forget s _

/-- A part of the targets that has nothing to do with what they remember. -/
theorem part_eq_of_bare {α : Type} (part : Target → α) (hbare : ∀ x, part x.bare = part x)
    {s s' : Store} (h : s'.bare = s.bare) (t : TargetId) :
    part (s'.target t) = part (s.target t) := by
  rw [← hbare, ← hbare (s.target t), (bare_eq_iff.mp h).2.2]

theorem source_of_bare {s s' : Store} (h : s'.bare = s.bare) : s'.source = s.source := by
  funext id
  rw [source, source, (bare_eq_iff.mp h).1]

theorem path_of_bare {s s' : Store} (h : s'.bare = s.bare) : s'.path = s.path := by
  funext id
  rw [path, path, source_of_bare h]

theorem ownSources_of_bare {s s' : Store} (h : s'.bare = s.bare) (t : TargetId) :
    s'.ownSources t = s.ownSources t := by
  rw [ownSources, ownSources, source_of_bare h, part_eq_of_bare Target.sources (fun _ => rfl) h]

/-- What the store remembers plays no part in its links. -/
theorem Linked.of_bare {s s' : Store} (h : s.Linked) (hbare : s'.bare = s.bare) : s'.Linked := by
  refine h.congr (bare_eq_iff.mp hbare).2.1 (part_eq_of_bare _ (fun _ => rfl) hbare)
    (part_eq_of_bare _ (fun _ => rfl) hbare) ?_
  intro t id hid
  rw [(bare_eq_iff.mp hbare).1]
  rw [part_eq_of_bare Target.sources (fun _ => rfl) hbare] at hid
  exact h.source_lt t id hid

theorem uses_of_bare {s s' : Store} (h : s'.bare = s.bare) : s'.Uses = s.Uses := by
  funext t u
  rw [Uses, Uses, part_eq_of_bare Target.objectLibraries (fun _ => rfl) h]

/-! ## Merging -/

/-- The paths of some source entries. -/
def paths (s : Store) (ids : List SourceId) : List String :=
  ids.map s.path

theorem mergeSources_cons (s : Store) (merged later : List SourceId) (id : SourceId) :
    s.mergeSources merged (id :: later) =
      s.mergeSources (if s.path id ∈ s.paths merged then merged else merged ++ [id]) later := rfl

/-- Merging appends entries of the later list, none of them with a path that was there. -/
theorem mergeSources_eq_append (s : Store) (merged later : List SourceId) :
    ∃ added, s.mergeSources merged later = merged ++ added ∧
      ∀ id ∈ added, id ∈ later ∧ s.path id ∉ s.paths merged := by
  induction later generalizing merged with
  | nil => exact ⟨[], by simp [mergeSources]⟩
  | cons id later ih =>
    rw [mergeSources_cons]
    split
    · obtain ⟨added, heq, hadded⟩ := ih merged
      exact ⟨added, heq, fun x hx => ⟨List.mem_cons_of_mem _ (hadded x hx).1, (hadded x hx).2⟩⟩
    · rename_i hnew
      obtain ⟨added, heq, hadded⟩ := ih (merged ++ [id])
      refine ⟨id :: added, by simp [heq], ?_⟩
      intro x hx
      rcases List.mem_cons.mp hx with rfl | hx
      · exact ⟨List.mem_cons_self, hnew⟩
      · refine ⟨List.mem_cons_of_mem _ (hadded x hx).1, fun hmem => (hadded x hx).2 ?_⟩
        simp only [paths, List.map_append, List.mem_append] at hmem ⊢
        exact .inl hmem

/-- Merging loses no path. -/
theorem mem_paths_mergeSources (s : Store) (merged later : List SourceId) (p : String) :
    p ∈ s.paths (s.mergeSources merged later) ↔ p ∈ s.paths merged ∨ p ∈ s.paths later := by
  induction later generalizing merged with
  | nil => simp [mergeSources, paths]
  | cons id later ih =>
    rw [mergeSources_cons, ih]
    split
    · rename_i hold
      simp only [paths, List.map_cons, List.mem_cons] at hold ⊢
      grind
    · simp only [paths, List.map_append, List.map_cons, List.map_nil, List.mem_append,
        List.mem_cons, List.not_mem_nil, or_false]
      grind

theorem mergeSources_congr {s s' : Store} {merged later : List SourceId}
    (h : ∀ id ∈ merged ++ later, s'.path id = s.path id) :
    s'.mergeSources merged later = s.mergeSources merged later := by
  induction later generalizing merged with
  | nil => rfl
  | cons id later ih =>
    have hpaths : s'.paths merged = s.paths merged :=
      List.map_congr_left fun x hx => h x (List.mem_append_left _ hx)
    rw [mergeSources_cons, mergeSources_cons, hpaths, h id (by simp)]
    apply ih
    intro x hx
    apply h
    split at hx <;> simp only [List.mem_append, List.mem_cons] at hx ⊢ <;> grind

/-- What is merged comes from the list at the start or from one that is added. -/
theorem mem_foldl_mergeSources {s : Store} {listOf : TargetId → List SourceId}
    {libraries : List TargetId} {own : List SourceId} {id : SourceId}
    (h : id ∈ libraries.foldl (fun merged library => s.mergeSources merged (listOf library)) own) :
    id ∈ own ∨ ∃ library ∈ libraries, id ∈ listOf library := by
  induction libraries generalizing own with
  | nil => exact .inl h
  | cons library libraries ih =>
    obtain ⟨added, heq, hadded⟩ := s.mergeSources_eq_append own (listOf library)
    rw [List.foldl_cons, heq] at h
    rcases ih h with hid | ⟨other, hother, hid⟩
    · rcases List.mem_append.mp hid with hid | hid
      · exact .inl hid
      · exact .inr ⟨library, List.mem_cons_self, (hadded id hid).1⟩
    · exact .inr ⟨other, List.mem_cons_of_mem _ hother, hid⟩

theorem foldl_mergeSources_congr {s s' : Store} {listOf listOf' : TargetId → List SourceId}
    {libraries : List TargetId} {own : List SourceId}
    (hlist : ∀ library ∈ libraries, listOf' library = listOf library)
    (hown : ∀ id ∈ own, s'.path id = s.path id)
    (hlater : ∀ library ∈ libraries, ∀ id ∈ listOf library, s'.path id = s.path id) :
    libraries.foldl (fun merged library => s'.mergeSources merged (listOf' library)) own =
      libraries.foldl (fun merged library => s.mergeSources merged (listOf library)) own := by
  induction libraries generalizing own with
  | nil => rfl
  | cons library libraries ih =>
    have hfirst : ∀ id ∈ own ++ listOf library, s'.path id = s.path id := by
      intro id hid
      rcases List.mem_append.mp hid with hid | hid
      · exact hown id hid
      · exact hlater library List.mem_cons_self id hid
    rw [List.foldl_cons, List.foldl_cons, hlist library List.mem_cons_self,
      mergeSources_congr hfirst]
    refine ih (fun l hl => hlist l (List.mem_cons_of_mem _ hl)) ?_
      fun l hl => hlater l (List.mem_cons_of_mem _ hl)
    intro id hid
    obtain ⟨added, heq, hadded⟩ := s.mergeSources_eq_append own (listOf library)
    rw [heq] at hid
    refine hfirst id ?_
    rcases List.mem_append.mp hid with hid | hid
    · exact List.mem_append_left _ hid
    · exact List.mem_append_right _ (hadded id hid).1

/-- The merged source list of a target down to a depth, with nothing remembered on the way. -/
def mergedWithin (s : Store) : Nat → TargetId → List SourceId
  | 0, t => (s.target t).sources
  | depth + 1, t =>
    (s.target t).objectLibraries.foldl
      (fun merged library => s.mergeSources merged (s.mergedWithin depth library))
      (s.target t).sources

/-- The merged source list of a target: its own sources and those of its libraries, one for each
path. -/
def merged (s : Store) (t : TargetId) : List SourceId :=
  s.mergedWithin s.targets.length t

theorem objectLibraries_eq_nil {s : Store} {rank : TargetId → Nat}
    (hrank : ∀ t u, s.Uses t u → rank u < rank t) {t : TargetId} (h : rank t = 0) :
    (s.target t).objectLibraries = [] := by
  rw [List.eq_nil_iff_forall_not_mem]
  intro u huse
  have := hrank t u huse
  omega

/-- A depth that covers the rank of a target is as good as any other one. -/
theorem mergedWithin_stable {s : Store} {rank : TargetId → Nat}
    (hrank : ∀ t u, s.Uses t u → rank u < rank t) {depth depth' : Nat} {t : TargetId}
    (h : rank t ≤ depth) (h' : rank t ≤ depth') :
    s.mergedWithin depth t = s.mergedWithin depth' t := by
  induction depth generalizing depth' t with
  | zero =>
    have hnone := objectLibraries_eq_nil hrank (Nat.le_zero.mp h)
    cases depth' <;> simp [mergedWithin, hnone]
  | succ depth ih =>
    cases depth' with
    | zero =>
      have hnone := objectLibraries_eq_nil hrank (Nat.le_zero.mp h')
      simp [mergedWithin, hnone]
    | succ depth' =>
      rw [mergedWithin, mergedWithin]
      apply List.foldl_ext
      intro merged library huse
      have := hrank t library huse
      have hsame : s.mergedWithin depth library = s.mergedWithin depth' library :=
        ih (by omega) (by omega)
      rw [hsame]

theorem mergedWithin_eq_merged {s : Store} {rank : TargetId → Nat}
    (hrank : ∀ t u, s.Uses t u → rank u < rank t) (hle : ∀ t, rank t ≤ s.targets.length)
    {depth : Nat} {t : TargetId} (h : rank t ≤ depth) : s.mergedWithin depth t = s.merged t :=
  mergedWithin_stable hrank h (hle t)

/-- The merged list of a target starts with its own sources, to which the merged lists of its
libraries are added. -/
theorem merged_eq {s : Store} (h : s.Linked) (t : TargetId) :
    s.merged t = (s.target t).objectLibraries.foldl
      (fun merged library => s.mergeSources merged (s.merged library)) (s.target t).sources := by
  obtain ⟨rank, hrank, hle⟩ := h.exists_rank
  rw [← mergedWithin_eq_merged hrank hle (Nat.le_succ_of_le (hle t)), mergedWithin]
  rfl

/-- The merged list starts with the target's own sources; none of the others has a path of
theirs. -/
theorem merged_eq_append {s : Store} (h : s.Linked) (t : TargetId) :
    ∃ added, s.merged t = (s.target t).sources ++ added ∧
      ∀ id ∈ added, s.path id ∉ s.paths (s.target t).sources := by
  rw [merged_eq h]
  generalize (s.target t).sources = own
  induction (s.target t).objectLibraries using List.reverseRecOn with
  | nil => exact ⟨[], by simp⟩
  | append_singleton libraries library ih =>
    obtain ⟨added, heq, hadded⟩ := ih
    obtain ⟨more, hmore, hnew⟩ := s.mergeSources_eq_append (own ++ added) (s.merged library)
    refine ⟨added ++ more, by simp [heq, hmore], fun id hid => ?_⟩
    rcases List.mem_append.mp hid with hid | hid
    · exact hadded id hid
    · intro hmem
      exact (hnew id hid).2 (by simp [paths] at hmem ⊢; exact .inl hmem)

/-- The paths of a merged list are those of the target itself and of the merged lists of its
libraries. -/
theorem mem_paths_merged {s : Store} (h : s.Linked) {t : TargetId} {p : String} :
    p ∈ s.paths (s.merged t) ↔ p ∈ s.paths (s.target t).sources ∨
      ∃ library, s.Uses t library ∧ p ∈ s.paths (s.merged library) := by
  rw [merged_eq h]
  unfold Uses
  generalize (s.target t).sources = own
  induction (s.target t).objectLibraries using List.reverseRecOn with
  | nil => simp
  | append_singleton libraries library ih =>
    rw [List.foldl_append, List.foldl_cons, List.foldl_nil, mem_paths_mergeSources, ih]
    simp only [List.mem_append, List.mem_singleton]
    grind

/-- No path of what a target is compiled from is lost. -/
theorem mem_paths_merged_of_reaches {s : Store} (h : s.Linked) {t u : TargetId}
    (hreach : s.Reaches t u) {p : String} (hp : p ∈ s.paths (s.merged u)) :
    p ∈ s.paths (s.merged t) := by
  induction hreach using Relation.TransGen.head_induction_on with
  | single huse => exact (mem_paths_merged h).mpr (.inr ⟨_, huse, hp⟩)
  | head huse _ ih => exact (mem_paths_merged h).mpr (.inr ⟨_, huse, ih⟩)

theorem lt_of_mem_mergedWithin {s : Store} (h : s.Linked) {depth : Nat}
    {t : TargetId} {id : SourceId} (hid : id ∈ s.mergedWithin depth t) : id < s.sources.length := by
  induction depth generalizing t id with
  | zero => exact h.source_lt t id hid
  | succ depth ih =>
    rcases mem_foldl_mergeSources hid with hown | ⟨library, -, hid⟩
    · exact h.source_lt t id hown
    · exact ih hid

/-- The merged list of a target depends on what the target is compiled from and on nothing else. -/
theorem mergedWithin_congr {s s' : Store} (h : s.Linked)
    (hpath : ∀ id < s.sources.length, s'.path id = s.path id) {depth : Nat} {t : TargetId}
    (hsources : ∀ u, u = t ∨ s.Reaches t u → (s'.target u).sources = (s.target u).sources)
    (hlibraries : ∀ u, u = t ∨ s.Reaches t u →
      (s'.target u).objectLibraries = (s.target u).objectLibraries) :
    s'.mergedWithin depth t = s.mergedWithin depth t := by
  induction depth generalizing t with
  | zero => exact hsources t (.inl rfl)
  | succ depth ih =>
    have hbelow {v : TargetId} (huse : s.Uses t v) {u : TargetId} (hu : u = v ∨ s.Reaches v u) :
        u = t ∨ s.Reaches t u := by
      rcases hu with rfl | hu
      · exact .inr (.single huse)
      · exact .inr (.head huse hu)
    rw [mergedWithin, mergedWithin, hsources t (.inl rfl), hlibraries t (.inl rfl)]
    refine foldl_mergeSources_congr (fun v huse => ?_) (fun id hid => ?_) fun v _ id hid => ?_
    · exact ih (fun u hu => hsources u (hbelow huse hu)) fun u hu => hlibraries u (hbelow huse hu)
    · exact hpath id (h.source_lt t id hid)
    · exact hpath id (lt_of_mem_mergedWithin h hid)

theorem merged_congr {s s' : Store} (h : s.Linked) (hlen : s'.targets.length = s.targets.length)
    (hpath : ∀ id < s.sources.length, s'.path id = s.path id) {t : TargetId}
    (hsources : ∀ u, u = t ∨ s.Reaches t u → (s'.target u).sources = (s.target u).sources)
    (hlibraries : ∀ u, u = t ∨ s.Reaches t u →
      (s'.target u).objectLibraries = (s.target u).objectLibraries) :
    s'.merged t = s.merged t := by
  rw [merged, merged, hlen, mergedWithin_congr h hpath hsources hlibraries]

/-- What the store remembers plays no part in the merged lists. -/
theorem merged_of_bare {s s' : Store} (h : s.Linked) (hbare : s'.bare = s.bare) (t : TargetId) :
    s'.merged t = s.merged t := by
  refine merged_congr h (bare_eq_iff.mp hbare).2.1 (fun id _ => ?_) (fun u _ => ?_) fun u _ => ?_
  · rw [path_of_bare hbare]
  · exact part_eq_of_bare Target.sources (fun _ => rfl) hbare u
  · exact part_eq_of_bare Target.objectLibraries (fun _ => rfl) hbare u

/-! ## Remembered lists -/

/-- Every list that is remembered is the merged one. -/
def RemembersMerged (s : Store) : Prop :=
  ∀ t ids, (s.target t).sourceCache = some ids → ids = s.merged t

/-- What a computation of merged lists makes of a store: it differs in what it remembers, and that
is right. -/
structure Keeps (s s' : Store) : Prop where
  bare : s'.bare = s.bare
  remembers : s'.RemembersMerged

theorem bare_mergeLibraries {listOf : TargetId → Store → List SourceId × Store}
    (hlist : ∀ library s, (listOf library s).2.bare = s.bare) (libraries : List TargetId)
    (merged : List SourceId) (s : Store) :
    (mergeLibraries listOf libraries merged s).2.bare = s.bare := by
  induction libraries generalizing merged s with
  | nil => rfl
  | cons library rest ih =>
    rw [mergeLibraries]
    exact (ih _ _).trans (hlist library s)

theorem bare_commonSourcesWithin (depth : Nat) (t : TargetId) (s : Store) :
    (commonSourcesWithin depth t s).2.bare = s.bare := by
  induction depth generalizing t s with
  | zero => rfl
  | succ depth ih =>
    rw [commonSourcesWithin]
    split
    · rfl
    · have hmerge := bare_mergeLibraries (fun library s => ih library s)
        (s.target t).objectLibraries (s.target t).sources s
      generalize mergeLibraries (commonSourcesWithin depth) (s.target t).objectLibraries
        (s.target t).sources s = out at hmerge ⊢
      exact (bare_modifyTarget (fun _ => rfl : ∀ x : Target,
        { x with sourceCache := some out.1 }.bare = x.bare) out.2 t).trans hmerge

/-- A computation of merged lists changes what a store remembers and nothing else. -/
theorem bare_commonSources (s : Store) (t : TargetId) : (s.commonSources t).2.bare = s.bare :=
  bare_commonSourcesWithin s.targets.length t s

theorem mergeLibraries_spec {listOf : TargetId → Store → List SourceId × Store} {s : Store}
    {libraries : List TargetId}
    (hlist : ∀ library ∈ libraries, ∀ r, s.Keeps r →
      (listOf library r).1 = s.merged library ∧ s.Keeps (listOf library r).2)
    (merged : List SourceId) {r : Store} (hr : s.Keeps r) :
    (mergeLibraries listOf libraries merged r).1 =
        libraries.foldl (fun merged library => s.mergeSources merged (s.merged library)) merged ∧
      s.Keeps (mergeLibraries listOf libraries merged r).2 := by
  induction libraries generalizing merged r with
  | nil => exact ⟨rfl, hr⟩
  | cons library libraries ih =>
    have hfirst := hlist library List.mem_cons_self r hr
    rw [mergeLibraries]
    generalize listOf library r = out at hfirst ⊢
    obtain ⟨ids, r'⟩ := out
    obtain ⟨rfl, hkeeps⟩ := hfirst
    have hmerge : r'.mergeSources merged (s.merged library) =
        s.mergeSources merged (s.merged library) :=
      mergeSources_congr fun id _ => by rw [path_of_bare hkeeps.bare]
    simp only [hmerge, List.foldl_cons]
    exact ih (fun l hl => hlist l (List.mem_cons_of_mem _ hl)) _ hkeeps

/-- From lists that are right the merged list of a target is computed, and the lists that are
remembered on the way are right, too. -/
theorem commonSourcesWithin_spec {s : Store} (h : s.Linked) {rank : TargetId → Nat}
    (hrank : ∀ t u, s.Uses t u → rank u < rank t) {depth : Nat} {t : TargetId}
    (hdepth : rank t ≤ depth) {r : Store} (hr : s.Keeps r) :
    (commonSourcesWithin depth t r).1 = s.merged t ∧
      s.Keeps (commonSourcesWithin depth t r).2 := by
  induction depth generalizing t r with
  | zero =>
    have hnone := objectLibraries_eq_nil hrank (Nat.le_zero.mp hdepth)
    refine ⟨?_, hr⟩
    rw [merged_eq h, hnone]
    exact part_eq_of_bare Target.sources (fun _ => rfl) hr.bare t
  | succ depth ih =>
    rw [commonSourcesWithin]
    split
    · rename_i ids hids
      exact ⟨(hr.remembers t ids hids).trans (merged_of_bare h hr.bare t), hr⟩
    -- The rank of a library is smaller, so the depth that is left is enough for it.
    · have hlist : ∀ library ∈ (s.target t).objectLibraries, ∀ r, s.Keeps r →
          (commonSourcesWithin depth library r).1 = s.merged library ∧
            s.Keeps (commonSourcesWithin depth library r).2 := by
        intro library huse r hr
        have := hrank t library huse
        exact ih (by omega) hr
      have hsources := part_eq_of_bare Target.sources (fun _ => rfl) hr.bare t
      have hlibraries := part_eq_of_bare Target.objectLibraries (fun _ => rfl) hr.bare t
      rw [hsources, hlibraries]
      have hmerge := mergeLibraries_spec hlist (s.target t).sources hr
      rw [← merged_eq h] at hmerge
      generalize mergeLibraries (commonSourcesWithin depth) (s.target t).objectLibraries
        (s.target t).sources r = out at hmerge ⊢
      obtain ⟨ids, r'⟩ := out
      obtain ⟨rfl, hkeeps⟩ := hmerge
      have hbare := (bare_modifyTarget
        (fun _ => rfl : ∀ x : Target, { x with sourceCache := some (s.merged t) }.bare = x.bare)
        r' t).trans hkeeps.bare
      -- What is remembered now is the list that was just computed, or was remembered before.
      refine ⟨rfl, hbare, fun u ids hu => ?_⟩
      rw [merged_of_bare h hbare]
      rw [target_modifyTarget] at hu
      split at hu
      · rename_i htu
        rw [← Option.some.inj hu, htu.1]
      · rw [← merged_of_bare h hkeeps.bare]
        exact hkeeps.remembers u ids hu

/-- The merged list of a target computed anew, with nothing remembered. -/
def recomputed (s : Store) (t : TargetId) : List SourceId :=
  (s.bare.commonSources t).1

/-- Every list that is remembered is the one that would be computed anew. -/
def Fresh (s : Store) : Prop :=
  ∀ t ids, (s.target t).sourceCache = some ids → ids = s.recomputed t

theorem recomputed_eq_merged {s : Store} (h : s.Linked) (t : TargetId) :
    s.recomputed t = s.merged t := by
  have hbare : s.bare.Linked := h.of_bare (bare_bare s)
  obtain ⟨rank, hrank, hle⟩ := hbare.exists_rank
  have hnone : s.bare.Keeps s.bare :=
    ⟨rfl, fun u ids hu => by simp [target_bare, Target.bare] at hu⟩
  rw [recomputed, commonSources, (commonSourcesWithin_spec hbare hrank (hle t) hnone).1,
    merged_of_bare h (bare_bare s)]

/-- A list is fresh when it is the merged one. -/
theorem fresh_iff {s : Store} (h : s.Linked) : s.Fresh ↔ s.RemembersMerged := by
  simp only [Fresh, RemembersMerged, recomputed_eq_merged h]

/-- From fresh lists the merged list of a target is computed, and the lists stay fresh. -/
theorem commonSources_spec {s : Store} (h : s.Linked) (hfresh : s.Fresh) (t : TargetId) :
    (s.commonSources t).1 = s.merged t ∧ (s.commonSources t).2.bare = s.bare ∧
      (s.commonSources t).2.Fresh := by
  obtain ⟨rank, hrank, hle⟩ := h.exists_rank
  obtain ⟨hids, hkeeps⟩ :=
    commonSourcesWithin_spec h hrank (hle t) ⟨rfl, (fresh_iff h).mp hfresh⟩
  exact ⟨hids, hkeeps.bare, (fresh_iff (h.of_bare hkeeps.bare)).mpr hkeeps.remembers⟩

/-- Lists stay right where what they are merged from stays. -/
theorem RemembersMerged.congr {s s' : Store} (h : s.Linked) (hs : s.RemembersMerged)
    (hlen : s'.targets.length = s.targets.length)
    (hpath : ∀ id < s.sources.length, s'.path id = s.path id)
    (hkept : ∀ u ids, (s'.target u).sourceCache = some ids →
      (s.target u).sourceCache = some ids ∧ ∀ v, v = u ∨ s.Reaches u v →
        (s'.target v).sources = (s.target v).sources ∧
          (s'.target v).objectLibraries = (s.target v).objectLibraries) : s'.RemembersMerged := by
  intro u ids hids
  obtain ⟨hold, hsame⟩ := hkept u ids hids
  rw [hs u ids hold]
  exact (merged_congr h hlen hpath (fun v hv => (hsame v hv).1) fun v hv => (hsame v hv).2).symm

/-- Neither a target nor anything that is compiled from it remembers a list. -/
def Forgotten (s : Store) (t : TargetId) : Prop :=
  ∀ u, u = t ∨ s.Reaches u t → (s.target u).sourceCache = none

/-- A list that is remembered is not compiled from a target about which nothing is remembered. -/
theorem Forgotten.ne_of_reaches {s : Store} {t u v : TargetId} {ids : List SourceId}
    (h : s.Forgotten t) (hids : (s.target u).sourceCache = some ids) (hv : v = u ∨ s.Reaches u v) :
    v ≠ t := by
  rintro rfl
  have hnone : (s.target u).sourceCache = none := h u (hv.imp_left Eq.symm)
  rw [hids] at hnone
  cases hnone

theorem sourceCache_forget {s : Store} {ts : List TargetId} {u : TargetId} {ids : List SourceId}
    (h : ((s.forget ts).target u).sourceCache = some ids) :
    u ∉ ts ∧ (s.target u).sourceCache = some ids := by
  rw [target_forget] at h
  split at h
  · cases h
  · rename_i hu
    exact ⟨hu, h⟩

theorem RemembersMerged.forget {s : Store} (h : s.Linked) (hs : s.RemembersMerged)
    (ts : List TargetId) : (s.forget ts).RemembersMerged := by
  intro u ids hids
  rw [merged_of_bare h (bare_forget s ts)]
  exact hs u ids (sourceCache_forget hids).2

theorem forgotten_clearSources {s : Store} (h : s.Linked) (t : TargetId) :
    (s.clearSources t).Forgotten t := by
  intro u hu
  rw [Reaches, uses_of_bare (bare_clearSources s t)] at hu
  rw [clearSources, target_forget, if_pos ((mem_dependents h).mpr hu)]
  rfl

/-- After a change at one target it is enough that the target and what is compiled from it
forget. -/
theorem RemembersMerged.clearSources {s r : Store} {t : TargetId} (h : s.Linked)
    (hs : s.RemembersMerged) (hr : r.Linked) (hlen : r.targets.length = s.targets.length)
    (hpath : ∀ id < s.sources.length, r.path id = s.path id)
    (hcache : ∀ u, (r.target u).sourceCache = (s.target u).sourceCache)
    (hreach : ∀ u, s.Reaches u t → r.Reaches u t)
    (hsame : ∀ u, u ≠ t → (r.target u).sources = (s.target u).sources ∧
      (r.target u).objectLibraries = (s.target u).objectLibraries) :
    (r.clearSources t).RemembersMerged := by
  have hbare := bare_clearSources r t
  refine hs.congr h ((bare_eq_iff.mp hbare).2.1.trans hlen) (fun id hid => ?_) fun u ids hids => ?_
  · rw [← hpath id hid, path_of_bare hbare]
  · obtain ⟨hu, hids⟩ := sourceCache_forget hids
    rw [mem_dependents hr, not_or] at hu
    refine ⟨(hcache u).symm.trans hids, fun v hv => ?_⟩
    have hne : v ≠ t := by
      rintro rfl
      rcases hv with rfl | hv
      · exact hu.1 rfl
      · exact hu.2 (hreach u hv)
    rw [part_eq_of_bare Target.sources (fun _ => rfl) hbare,
      part_eq_of_bare Target.objectLibraries (fun _ => rfl) hbare]
    exact hsame v hne

end Autogen.Store
