import Autogen.Proofs.Descriptor.File
import Autogen.Proofs.Plan.Comparison

/-!
# Carrying out a plan again

What a plan registers is registered once: where it has been carried out, carrying it out again
leaves everything as it is.

## Main definitions

* `Graph.CarriedOut` — a plan of which nothing is left to be done.

## Main statements

* `Graph.carriedOut_of_emit` — nothing is left to be done of a plan that was carried out.
* `Graph.CarriedOut.emit` — carrying it out again changes nothing.
-/

namespace Autogen

open FileSystem

/-- Changing an element of a list into itself changes nothing. -/
theorem modify_of_getD {α : Type} {items : List α} {i : Nat} {f : α → α} {none : α}
    (h : f (items.getD i none) = items.getD i none) : items.modify i f = items := by
  refine List.ext_getElem? fun k => ?_
  rw [List.getElem?_modify]
  by_cases hk : i = k
  · subst hk
    cases hget : items[i]? with
    | none => simp
    | some a =>
      have ha : items.getD i none = a := by simp [List.getD_eq_getElem?_getD, hget]
      rw [ha] at h
      simp [h]
  · simp [hk]

theorem Store.modifyTarget_self {s : Store} {t : TargetId} {f : Target → Target}
    (h : f (s.target t) = s.target t) : s.modifyTarget t f = s := by
  rw [modifyTarget, modify_of_getD h]

theorem Store.modifySource_self {s : Store} {id : SourceId} {f : SourceFile → SourceFile}
    (h : f (s.source id) = s.source id) : s.modifySource id f = s := by
  rw [modifySource, modify_of_getD h]

namespace Graph

variable {g g' : Graph} {t : TargetId} {fs : FileSystem} {p : Plan} {ds : Diagnostics}

/-! ## Files -/

/-- A registered output is not registered again. -/
theorem Registered.again (hg : g.WellFormed) {path : String} (h : g.Registered t path) :
    g.registerSource t path = g := by
  obtain ⟨id, hindex, hmark, hmem⟩ := h
  have hfor : g.sourceFor path = (id, g) := by rw [sourceFor, hindex]
  have hstore : g.store.modifySource id markOutput = g.store := Store.modifySource_self hmark
  have hmarked : g.modifySource id markOutput = g := by rw [modifySource, hstore]
  rw [registerSource, hfor]
  simp only [hmarked]
  rw [addSource_eq]
  rcases Store.addSource_cases g.store t id with ⟨-, heq⟩ | ⟨hnew, -⟩
  · rw [heq]
  · rw [(hg.index path id hindex).2] at hnew
    exact absurd hmem hnew

/-- A generated file that is in its source group, if it has one with a folder. -/
def Grouped (g : Graph) (file : GeneratedFile) : Prop :=
  ∀ name, g.settings.groupFor file.tool = some name → g.settings.sourceGroupDelimiter ≠ "" ∧
    (groupFolders g.settings.sourceGroupDelimiter name ≠ [] → ∃ group,
      g.sourceGroups.get? (groupFolders g.settings.sourceGroupDelimiter name) = some group ∧
        file.path ∈ group.toList)

/-- Source groups only get more files. -/
def GroupsGrow (g g' : Graph) : Prop :=
  g'.settings = g.settings ∧ ∀ folders group, g.sourceGroups.get? folders = some group →
    ∃ group', g'.sourceGroups.get? folders = some group' ∧
      ∀ file ∈ group.toList, file ∈ group'.toList

theorem Grouped.grows {file : GeneratedFile} (h : g.Grouped file) (hgroups : g.GroupsGrow g') :
    g'.Grouped file := by
  intro name hname
  rw [hgroups.1] at hname ⊢
  obtain ⟨hdelimiter, hfile⟩ := h name hname
  refine ⟨hdelimiter, fun hfolders => ?_⟩
  obtain ⟨group, hgroup, hmem⟩ := hfile hfolders
  obtain ⟨group', hgroup', hsub⟩ := hgroups.2 _ group hgroup
  exact ⟨group', hgroup', hsub _ hmem⟩

theorem GroupsGrow.of_eq (hsettings : g'.settings = g.settings)
    (hgroups : g'.sourceGroups = g.sourceGroups) :
    g.GroupsGrow g' :=
  ⟨hsettings, fun folders group hgroup => ⟨group, by rw [hgroups, hgroup], fun _ h => h⟩⟩

theorem GroupsGrow.trans {g'' : Graph} (h : g.GroupsGrow g') (h' : g'.GroupsGrow g'') :
    g.GroupsGrow g'' := by
  refine ⟨h'.1.trans h.1, fun folders group hgroup => ?_⟩
  obtain ⟨group', hgroup', hsub⟩ := h.2 folders group hgroup
  obtain ⟨group'', hgroup'', hsub'⟩ := h'.2 folders group' hgroup'
  exact ⟨group'', hgroup'', fun file hfile => hsub' file (hsub file hfile)⟩

theorem groupsGrow_addToSourceGroup (g : Graph) (folders files : List String) :
    g.GroupsGrow (g.addToSourceGroup folders files) := by
  refine ⟨rfl, fun other group hgroup => ?_⟩
  simp only [addToSourceGroup, OrderedMap.get?_insert]
  split
  · rename_i heq
    subst heq
    rw [hgroup]
    exact ⟨_, rfl, fun file hfile => OrderedSet.mem_insertAll.mpr (.inl hfile)⟩
  · exact ⟨group, hgroup, fun _ h => h⟩

/-- A file that was added to its source group is in it. -/
theorem groupFile_grouped {e : Effects} {file : GeneratedFile} (h : (groupFile e file).2 = none) :
    e.graph.GroupsGrow (groupFile e file).1.graph ∧ (groupFile e file).1.graph.Grouped file := by
  unfold groupFile at h ⊢
  split at h
  · rename_i hnone
    refine ⟨.of_eq rfl rfl, fun name hname => ?_⟩
    rw [hnone] at hname
    cases hname
  · rename_i name hname
    by_cases hdelimiter : e.graph.settings.sourceGroupDelimiter = ""
    · simp only [if_pos hdelimiter] at h
      cases h
    · have hsame {other : String} (hother : e.graph.settings.groupFor file.tool = some other) :
          other = name := Option.some.inj (hother.symm.trans hname)
      simp only [if_neg hdelimiter]
      split
      · rename_i hempty
        refine ⟨.of_eq rfl rfl, fun other hother => ⟨hdelimiter, fun hfolders => ?_⟩⟩
        rw [hsame hother] at hfolders
        exact absurd (List.isEmpty_iff.mp hempty) hfolders
      · refine ⟨groupsGrow_addToSourceGroup _ _ _, fun other hother => ⟨hdelimiter, fun _ => ?_⟩⟩
        rw [hsame hother]
        refine ⟨_, (OrderedMap.get?_insert _ _ _ _).trans (if_pos rfl), ?_⟩
        exact OrderedSet.mem_insertAll.mpr (.inr List.mem_cons_self)

/-- A file that is in its source group is not added again, and the same is said about it as
before. -/
theorem Grouped.again {e e' : Effects} {file : GeneratedFile} (h : e'.graph.Grouped file)
    (hsettings : e'.graph.settings = e.graph.settings) (hsaid : e'.diagnostics = e.diagnostics) :
    groupFile e' file = (⟨e'.graph, (groupFile e file).1.diagnostics⟩, none) := by
  obtain ⟨graph, said⟩ := e'
  simp only at hsettings hsaid h ⊢
  subst hsaid
  unfold groupFile
  rw [← hsettings]
  simp only
  split
  · rfl
  · rename_i name hname
    obtain ⟨hdelimiter, hgroup⟩ := h name hname
    simp only [if_neg hdelimiter]
    split
    · rfl
    · rename_i hfolders
      obtain ⟨group, hget, hmem⟩ := hgroup fun hempty => hfolders (List.isEmpty_iff.mpr hempty)
      have hkept : group.insertAll [file.path] = group :=
        OrderedSet.insertAll_of_subset fun other hother => List.mem_singleton.mp hother ▸ hmem
      rw [addToSourceGroup, hget, Option.getD_some, hkept, OrderedMap.insert_of_get? hget]

/-- What registering a file leaves alone in a graph, apart from its store and index. -/
structure Keeps (g g' : Graph) : Prop where
  cleanFiles : g'.cleanFiles = g.cleanFiles
  reconfigureFiles : g'.reconfigureFiles = g.reconfigureFiles
  utilitySteps : g'.utilitySteps = g.utilitySteps
  groups : g.GroupsGrow g'

theorem Keeps.trans {g'' : Graph} (h : g.Keeps g') (h' : g'.Keeps g'') : g.Keeps g'' :=
  ⟨h'.cleanFiles.trans h.cleanFiles, h'.reconfigureFiles.trans h.reconfigureFiles,
    h'.utilitySteps.trans h.utilitySteps, h.groups.trans h'.groups⟩

theorem registerSource_keeps (g : Graph) (t : TargetId) (path : String) :
    g.Keeps (g.registerSource t path) := by
  obtain ⟨store, heq⟩ := frame_registerSource g t path
  rw [heq]
  exact ⟨rfl, rfl, rfl, .of_eq rfl rfl⟩

theorem groupFile_keeps {e : Effects} {file : GeneratedFile} (h : (groupFile e file).2 = none) :
    e.graph.Keeps (groupFile e file).1.graph := by
  obtain ⟨groups, heq⟩ := frame_groupFile e file
  exact ⟨by rw [heq], by rw [heq], by rw [heq], (groupFile_grouped h).1⟩

/-- Files that are registered are in their source groups. -/
theorem registerFiles_grouped {e : Effects} {files : List GeneratedFile}
    (h : (registerFiles t e files).2 = none) :
    e.graph.Keeps (registerFiles t e files).1.graph ∧
      ∀ file ∈ files, (registerFiles t e files).1.graph.Grouped file := by
  induction files generalizing e with
  | nil => exact ⟨⟨rfl, rfl, rfl, .of_eq rfl rfl⟩, fun file hfile => absurd hfile List.not_mem_nil⟩
  | cons file rest ih =>
    have hregister := registerSource_keeps e.graph t file.path
    rw [registerFiles] at h ⊢
    rcases hout :
      groupFile { e with graph := e.graph.registerSource t file.path } file with ⟨e', fault⟩
    rw [hout] at h
    cases fault with
    | some fault => cases h
    | none =>
      have hnone : (groupFile { e with graph := e.graph.registerSource t file.path } file).2 =
          none := by
        rw [hout]
      obtain ⟨-, hgrouped⟩ := groupFile_grouped hnone
      have hkeeps := hregister.trans (groupFile_keeps hnone)
      rw [hout] at hgrouped hkeeps
      obtain ⟨hrest, hothers⟩ := ih h
      refine ⟨hkeeps.trans hrest, fun other hother => ?_⟩
      rcases List.mem_cons.mp hother with rfl | hother
      · exact hgrouped.grows hrest.groups
      · exact hothers other hother

/-- Files that are registered are not registered again, and the same is said about them as
before. -/
theorem registerFiles_again {e e' : Effects} {files : List GeneratedFile} (hg : e'.graph.WellFormed)
    (hgrows : e.graph.settings = e'.graph.settings) (hsaid : e'.diagnostics = e.diagnostics)
    (hregistered : ∀ file ∈ files, e'.graph.Registered t file.path)
    (hgrouped : ∀ file ∈ files, e'.graph.Grouped file) (h : (registerFiles t e files).2 = none) :
    registerFiles t e' files = (⟨e'.graph, (registerFiles t e files).1.diagnostics⟩, none) := by
  induction files generalizing e e' with
  | nil =>
    obtain ⟨graph, said⟩ := e'
    simp only [registerFiles] at hsaid ⊢
    rw [hsaid]
  | cons file rest ih =>
    have hsource := (hregistered file List.mem_cons_self).again hg
    have hsettings : e'.graph.settings = (e.graph.registerSource t file.path).settings := by
      rw [(registerSource_keeps e.graph t file.path).groups.1, hgrows]
    have hgroup := (hgrouped file List.mem_cons_self).again (e := { e with
      graph := e.graph.registerSource t file.path }) hsettings hsaid
    rw [registerFiles, hsource, hgroup]
    rw [registerFiles] at h ⊢
    rcases hout :
      groupFile { e with graph := e.graph.registerSource t file.path } file with ⟨next, fault⟩
    have hnext : (groupFile { e with graph := e.graph.registerSource t file.path } file).2 =
        fault := by
      rw [hout]
    rw [hout] at h
    cases fault with
    | some fault => cases h
    | none =>
      -- The graph stays, so the second pass differs from the first one in nothing that is said.
      have hkept : next.graph.settings = e'.graph.settings := by
        have hgroups := (groupFile_grouped hnext).1.1
        rw [hout] at hgroups
        exact hgroups.trans hsettings.symm
      simp only
      refine ih hg hkept rfl (fun other hother => ?_) (fun other hother => ?_) h
      · exact hregistered other (List.mem_cons_of_mem _ hother)
      · exact hgrouped other (List.mem_cons_of_mem _ hother)

/-! ## Plans -/

theorem oldSettingsFiles_grows {planned : Set TargetId} {outputs : Set String}
    (h : g.Grows planned outputs g') :
    g'.oldSettingsFiles (g'.target t) = g.oldSettingsFiles (g.target t) := by
  have hframe (g : Graph) (x : Target) :
      g.oldSettingsFiles x = (ofSettings g.settings).oldSettingsFiles x.frame := rfl
  have htarget : (g'.target t).frame = (g.target t).frame := h.store.frame t
  rw [hframe g', hframe g, h.settings, htarget]

theorem generationStep_grows {planned : Set TargetId} {outputs : Set String}
    (h : g.Grows planned outputs g') (p : Plan) :
    g'.generationStep (g'.target t) p = g.generationStep (g.target t) p := by
  have hframe (g : Graph) (x : Target) :
      g.generationStep x p = (ofSettings g.settings).generationStep x.frame p := rfl
  have htarget : (g'.target t).frame = (g.target t).frame := h.store.frame t
  rw [hframe g', hframe g, h.settings, htarget]

/-- A plan of which nothing is left to be done. -/
structure CarriedOut (g : Graph) (t : TargetId) (p : Plan) : Prop where
  clean : ∀ file ∈ p.buildDir :: g.oldSettingsFiles (g.target t), file ∈ g.cleanFiles.toList
  registered : ∀ file ∈ p.generatedFiles, g.Registered t file.path
  grouped : ∀ file ∈ p.generatedFiles, g.Grouped file
  free : g.isTaken p.autogenTargetName = false
  step : g.utilitySteps.get? p.autogenTargetName = some (g.generationStep (g.target t) p)
  utility : p.autogenTargetName ∈ (g.target t).utilities.toList

/-- Nothing is left to be done of a plan that was carried out. -/
theorem carriedOut_of_emit [Environment] (hg : g.WellFormed) (ht : t < g.store.targets.length)
    (hname : p.autogenTargetName = (g.target t).autogenName) {path : Path}
    (h : (g.emit fs t p ds).result = .ok path) : (g.emit fs t p ds).graph.CarriedOut t p := by
  obtain ⟨e, hfiles, hfree, -, -, heq⟩ := emit_eq_ok h
  obtain ⟨hgrows, hregistered, -⟩ := emit_spec hg hname fs ds
  have hclean : g.Grows {t} p.outputs (g.prepared t p ds).graph := prepared_grows g t p ds
  obtain ⟨hkeeps, hgrouped⟩ := registerFiles_grouped (congrArg Prod.snd hfiles)
  obtain ⟨hfilesGrow, -, -⟩ := registerFiles_spec (hg.grows hclean) t p.generatedFiles
  rw [hfiles] at hkeeps hgrouped hfilesGrow
  have hregistered' := hregistered ht path h
  have hgraph : (g.emit fs t p ds).graph = e.graph.withStep t p := by rw [heq]
  have he : t < e.graph.store.targets.length := by
    rw [hfilesGrow.store.length_targets]
    exact ht
  have hstep : e.graph.generationStep (e.graph.target t) p = g.generationStep (g.target t) p :=
    generationStep_grows (hclean.trans hfilesGrow) p
  have hsettings := oldSettingsFiles_grows (t := t) hgrows
  have hfinal := generationStep_grows (t := t) hgrows p
  rw [hgraph] at hregistered' hsettings hfinal ⊢
  refine ⟨fun file hfile => ?_, hregistered', fun file hfile => ?_, hfree, ?_, ?_⟩
  · rw [hsettings] at hfile
    have hkept : (e.graph.withStep t p).cleanFiles =
        g.cleanFiles.insertAll (p.buildDir :: g.oldSettingsFiles (g.target t)) := hkeeps.cleanFiles
    rw [hkept]
    exact OrderedSet.mem_insertAll.mpr (.inr hfile)
  · exact (hgrouped file hfile).grows (.of_eq rfl rfl)
  · rw [hfinal, ← hstep]
    exact (OrderedMap.get?_insert _ _ _ _).trans (if_pos rfl)
  · rw [withStep, target, modifyTarget, Store.target_modifyTarget, if_pos ⟨rfl, he⟩]
    exact OrderedSet.mem_insert.mpr (.inr rfl)

/-- Carrying out a plan again changes nothing, and the same is said about it as before. -/
theorem CarriedOut.emit [Environment] (hg : g.WellFormed) (h : g.CarriedOut t p)
    (hsettings : g'.settings = g.settings)
    (hfiles : (registerFiles t (g'.prepared t p ds) p.generatedFiles).2 = none)
    (hwrite : Descriptor.write fs (Path.ofString p.infoFile) p.render = (fs, .ok ())) :
    g.emit fs t p ds =
      ⟨g, (registerFiles t (g'.prepared t p ds) p.generatedFiles).1.diagnostics, fs,
      .ok (Path.ofString p.infoFile)⟩ := by
  have hclean : g.prepared t p ds = ⟨g, ds⟩ := by
    rw [prepared, addCleanFiles, OrderedSet.insertAll_of_subset h.clean]
  have hregister : registerFiles t (g.prepared t p ds) p.generatedFiles =
      (⟨g, (registerFiles t (g'.prepared t p ds) p.generatedFiles).1.diagnostics⟩, none) := by
    rw [hclean]
    exact registerFiles_again hg hsettings rfl h.registered h.grouped hfiles
  have hstep : g.withStep t p = g := by
    have hkept : g.utilitySteps.insert p.autogenTargetName (g.generationStep (g.target t) p) =
        g.utilitySteps := OrderedMap.insert_of_get? h.step
    have hutility : (g.store.target t).addUtility p.autogenTargetName = g.store.target t := by
      have hmem : p.autogenTargetName ∈ (g.store.target t).utilities.toList := h.utility
      rw [Target.addUtility, OrderedSet.insert, dif_pos hmem]
    rw [withStep, hkept, modifyTarget, Store.modifyTarget_self hutility]
  rcases emit_cases g fs t p ds with ⟨hfails | htaken, -⟩ | ⟨-, -, heq⟩
  · rw [hregister] at hfails
    exact absurd rfl hfails
  · rw [hregister, h.free] at htaken
    cases htaken
  · rw [heq, hregister, hstep, hwrite]
    rfl

end Graph

end Autogen
