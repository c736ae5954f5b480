import Autogen.Proofs.Graph.Growth

/-!
# Sources of a new target

A target gets its sources one after another when it is made. Of several sources with one path the
first one counts.

## Main definitions

* `SourceFile.firsts` — the first one of the sources with each path.

## Main statements

* `Store.addNewSources_spec` — what else there is in the store stays.
* `Store.ownSources_addNewSources` — the sources that a target has in the end.
-/

namespace Autogen

/-- The first one of the sources with each path. -/
def SourceFile.firsts : List SourceFile → List SourceFile
  | [] => []
  | s :: rest => s :: (firsts rest).filter (·.path ≠ s.path)

theorem SourceFile.firsts_subset (entries : List SourceFile) : firsts entries ⊆ entries := by
  induction entries with
  | nil => exact List.Subset.refl _
  | cons s rest ih =>
    intro other hother
    rcases List.mem_cons.mp hother with rfl | hother
    · exact List.mem_cons_self
    · exact List.mem_cons_of_mem _ (ih (List.mem_of_mem_filter hother))

theorem SourceFile.nodup_paths_firsts (entries : List SourceFile) :
    ((firsts entries).map path).Nodup := by
  induction entries with
  | nil => exact List.nodup_nil
  | cons s rest ih =>
    rw [firsts, List.map_cons, List.nodup_cons]
    constructor
    · simp
    · exact ih.sublist (List.filter_sublist.map _)

namespace Store

variable {s : Store} {t u : TargetId}

theorem addNewSources_cons (s : Store) (t : TargetId) (entry : SourceFile)
    (rest : List SourceFile) :
    s.addNewSources t (entry :: rest) =
      ((s.newSource entry).2.addSource t s.sources.length).2.addNewSources t rest := rfl

theorem sources_addSource (s : Store) (t : TargetId) (id : SourceId) :
    (s.addSource t id).2.sources = s.sources ∧
      (s.addSource t id).2.targets.length = s.targets.length := by
  rcases s.addSource_cases t id with ⟨-, heq⟩ | ⟨-, heq⟩ <;> simp [heq]

/-- The sources of a target are put into the store, and the targets change in their sources
alone. -/
theorem addNewSources_spec (s : Store) (t : TargetId) (entries : List SourceFile) :
    (s.addNewSources t entries).sources = s.sources ++ entries ∧
      (s.addNewSources t entries).targets.length = s.targets.length ∧
      ∀ {α : Type} (part : Target → α), (∀ x ids, part { x with sources := ids } = part x) →
        ∀ u, part ((s.addNewSources t entries).target u) = part (s.target u) := by
  induction entries generalizing s with
  | nil => simp [addNewSources]
  | cons entry rest ih =>
    obtain ⟨hsources, hlen⟩ := (s.newSource entry).2.sources_addSource t s.sources.length
    obtain ⟨hrest, hlen', hparts⟩ := ih ((s.newSource entry).2.addSource t s.sources.length).2
    rw [addNewSources_cons]
    refine ⟨?_, ?_, fun part hpart u => ?_⟩
    · rw [hrest, hsources]
      simp [newSource]
    · rw [hlen', hlen]
      rfl
    · rw [hparts part hpart]
      exact part_addSource part hpart _ t _ u

theorem Linked.addNewSources (h : s.Linked) (t : TargetId) (entries : List SourceFile) :
    (s.addNewSources t entries).Linked := by
  induction entries generalizing s with
  | nil => exact h
  | cons entry rest ih =>
    have hnew : (s.newSource entry).2.Linked := by
      refine h.congr rfl (fun _ => rfl) (fun _ => rfl) ?_
      intro u id hid
      exact (h.source_lt u id hid).trans_le (by simp [newSource])
    rw [addNewSources_cons]
    exact ih (hnew.addSource t (by simp [newSource]))

theorem ownSources_congr {s' : Store} (h : s.Linked)
    (htarget : (s'.target t).sources = (s.target t).sources)
    (hsource : ∀ id < s.sources.length, s'.source id = s.source id) :
    s'.ownSources t = s.ownSources t := by
  unfold ownSources
  rw [htarget]
  exact List.map_congr_left fun id hid => hsource id (h.source_lt t id hid)

/-- A new source is put behind those of a target, unless its path is among theirs. -/
theorem ownSources_addSource (h : s.Linked) (ht : t < s.targets.length) (entry : SourceFile) :
    ((s.newSource entry).2.addSource t s.sources.length).2.ownSources t =
      if entry.path ∈ (s.ownSources t).map SourceFile.path then s.ownSources t
      else s.ownSources t ++ [entry] := by
  have hold : (s.newSource entry).2.ownSources t = s.ownSources t :=
    ownSources_congr h rfl fun id hid => source_newSource entry hid
  have hentry : (s.newSource entry).2.source s.sources.length = entry := by
    simp [source, newSource]
  have hpaths : (s.newSource entry).2.paths ((s.newSource entry).2.target t).sources =
      (s.ownSources t).map SourceFile.path := by
    rw [← hold, ownSources, List.map_map]
    rfl
  have hcases := (s.newSource entry).2.addSource_cases t s.sources.length
  rw [hpaths, path, hentry] at hcases
  rcases hcases with ⟨hmem, heq⟩ | ⟨hmem, heq⟩
  · rw [heq, hold, if_pos hmem]
  · have hlt : t < (s.newSource entry).2.targets.length := ht
    rw [heq, if_neg hmem, ← hold, ownSources, target_modifyTarget, if_pos ⟨rfl, hlt⟩]
    simp only [source_modifyTarget, List.map_append, List.map_singleton, hentry]
    rfl

/-- Described sources are put behind those of a target; of several with the same path the first one
counts. -/
theorem ownSources_addNewSources (h : s.Linked) (ht : t < s.targets.length)
    (entries : List SourceFile) :
    (s.addNewSources t entries).ownSources t = s.ownSources t ++
      (SourceFile.firsts entries).filter (·.path ∉ (s.ownSources t).map SourceFile.path) := by
  induction entries generalizing s with
  | nil => simp [addNewSources, SourceFile.firsts]
  | cons entry rest ih =>
    have hnew : ((s.newSource entry).2.addSource t s.sources.length).2.Linked :=
      h.addNewSources t [entry]
    obtain ⟨-, hlen⟩ := (s.newSource entry).2.sources_addSource t s.sources.length
    rw [addNewSources_cons, ih hnew (hlen ▸ ht), ownSources_addSource h ht, SourceFile.firsts]
    split
    · rename_i hmem
      rw [List.filter_cons_of_neg (by simpa using hmem), List.filter_filter]
      congr 1
      refine List.filter_congr fun other _ => ?_
      grind
    · rename_i hmem
      rw [List.filter_cons_of_pos (by simpa using hmem), List.filter_filter, List.append_assoc,
        List.singleton_append]
      congr 2
      refine List.filter_congr fun other _ => ?_
      grind

/-- Sources that are put into the store for one target leave the other ones alone. -/
theorem target_addNewSources_of_ne (s : Store) (hne : u ≠ t) (entries : List SourceFile) :
    (s.addNewSources t entries).target u = s.target u := by
  induction entries generalizing s with
  | nil => rfl
  | cons entry rest ih =>
    rw [addNewSources_cons, ih]
    rcases (s.newSource entry).2.addSource_cases t s.sources.length with ⟨-, heq⟩ | ⟨-, heq⟩
    · rw [heq]
      rfl
    · rw [heq, target_modifyTarget, if_neg fun h => hne h.1.symm]
      rfl

end Store

end Autogen
