import Autogen.Proofs.Plan.Rerun
import Mathlib.Logic.Relation

/-!
# Planning one target among others

Targets share the graph, their source entries and the tree of files. Whatever is planned and run for
other targets, in any order and with any outcome, is growth that spares what the plan of a target is
made from, as long as no output is one of its inputs.

## Main definitions

* `Target.mentioned` — the names that a target can depend on.
* `Graph.OtherCall` — the graphs and trees that planning or running other targets leaves behind.
* `Graph.Undisturbed` — growth that spares the inputs of a target.

## Main statements

* `Graph.Undisturbed.calls` — calls for other targets do not disturb a target.
* `Graph.plan_of_others` — the plan of a target after calls for others.
-/

namespace Autogen

open FileSystem

section

theorem face_withIncludeDir (x : Target) (directory : Option String) :
    (x.withIncludeDir directory).face = x.face.withIncludeDir directory := by
  unfold Target.withIncludeDir
  split
  · unfold Target.addIncludeDirectory
    split_ifs <;> simp_all [Target.face]
  · rfl

variable [Environment]

/-- The names that a target can depend on. -/
def Target.mentioned (x : Target) : List String :=
  x.properties.autogenTargetDepends ++ x.utilities.toList ++ x.linkLibraries

namespace Graph

variable {g g' g'' : Graph} {t : TargetId} {fs fs' fs'' : FileSystem} {planned : Set TargetId}
  {outputs : Set String} {lister : ResourceLister}

/-! ## Targets that are not planned -/

omit [Environment] in
/-- A target that is not planned is the same but for what is remembered. -/
theorem target_of_unplanned (h : g.Grows planned outputs g') (ht : t ∉ planned) :
    ∃ cache, g'.target t = { g.target t with sourceCache := cache } :=
  eq_of_bare (h.store.unplanned t ht)

theorem face_of_unplanned (h : g.Grows planned outputs g') (ht : t ∉ planned) :
    ((g'.included t).target t).face = ((g.included t).target t).face := by
  obtain ⟨cache, hcache⟩ := target_of_unplanned h ht
  have hsame : (g'.target t).face = (g.target t).face := (congrArg Target.face hcache).trans rfl
  rw [target_included, target_included, includeDir?_grows h, h.store.length_targets]
  split
  · rw [face_withIncludeDir, face_withIncludeDir, hsame]
  · exact hsame

/-- If the names that a target mentions are known as before, the names that its dependencies are
made from are known alike. -/
theorem knownAlike_of_mentioned (h : g.Grows planned outputs g') (ht : t ∉ planned)
    (hknown : ∀ name ∈ (g.target t).mentioned, g'.isKnown name = g.isKnown name) :
    (g.included t).KnownAlike t (g'.included t) := by
  obtain ⟨cache, hcache⟩ := target_of_unplanned h ht
  -- The target differs from before in its directory of generated headers and in what is remembered.
  have hpart {α : Type} (part : Target → α)
      (hpart : ∀ x dirs, part { x with includeDirectories := dirs } = part x)
      (hbare : ∀ x ids, part { x with sourceCache := ids } = part x) :
      part ((g'.included t).target t) = part (g.target t) ∧
        part ((g.included t).target t) = part (g.target t) := by
    refine ⟨?_, part_included part hpart t⟩
    rw [part_included part hpart t, hcache, hbare]
  have hincluded {name : String} (hname : name ∈ (g.target t).mentioned) :
      (g'.included t).isKnown name = (g.included t).isKnown name :=
    hknown name hname
  unfold Target.mentioned at hincluded
  refine ⟨fun token htoken => ?_, fun binding lister => ?_⟩
  · rw [(hpart (·.properties) (fun _ _ => rfl) fun _ _ => rfl).2] at htoken
    exact hincluded (List.mem_append_left _ (List.mem_append_left _ htoken))
  · obtain ⟨hname', hname⟩ := hpart Target.autogenName (fun _ _ => rfl) fun _ _ => rfl
    obtain ⟨hutilities', hutilities⟩ := hpart (·.utilities) (fun _ _ => rfl) fun _ _ => rfl
    obtain ⟨hlibraries', hlibraries⟩ := hpart (·.linkLibraries) (fun _ _ => rfl) fun _ _ => rfl
    unfold DependencyRequest.linked Target.dependencyRequest
    simp only [hname, hname', hutilities, hutilities', hlibraries, hlibraries']
    refine List.filter_congr fun name hmem => ?_
    rw [List.append_assoc] at hincluded
    rw [hincluded (List.mem_append_right _ hmem)]

/-- Names that are not those of planned steps are known alike. -/
theorem knownAlike_of_unplanned (h : g.Grows planned outputs g') (ht : t ∉ planned)
    (hnames : ∀ u ∈ planned, (g.target u).autogenName ∉ (g.target t).mentioned) :
    (g.included t).KnownAlike t (g'.included t) := by
  refine knownAlike_of_mentioned h ht fun name hname => isKnown_of_unplanned h fun u hu => ?_
  rintro rfl
  exact hnames u hu hname

/-! ## Calls for others -/

/-- The graphs and trees that planning or running one of the planned targets leaves behind, whatever
comes of it, where no output of a run is an input of the target that is not planned. -/
inductive OtherCall (planned : Set TargetId) (t : TargetId) :
    Graph × FileSystem → Graph × FileSystem → Prop
  | plan (g : Graph) (fs : FileSystem) (lister : ResourceLister) {u : TargetId} (hu : u ∈ planned) :
      OtherCall planned t (g, fs) ((g.plan fs lister u).graph, fs)
  | run (g : Graph) (fs : FileSystem) (lister : ResourceLister) {u : TargetId} (hu : u ∈ planned)
      (havoid : ∀ p, (g.plan fs lister u).result = .ok p →
        ∀ source ∈ g.store.inputs t, source.path ∉ p.outputs) :
      OtherCall planned t (g, fs) ((g.run fs lister u).graph, (g.run fs lister u).files)

/-- A graph and a tree that grow without an input of the target becoming an output. -/
structure Undisturbed (planned : Set TargetId) (t : TargetId) (g : Graph)
    (fs : FileSystem) (g' : Graph) (fs' : FileSystem) : Prop where
  graph : g.Grows planned {path | ∀ source ∈ g.store.inputs t, source.path ≠ path} g'
  fresh : g'.Fresh
  tree : fs.Grows fs'

omit [Environment] in
theorem Undisturbed.refl (hfresh : g.Fresh) (fs : FileSystem) : Undisturbed planned t g fs g fs :=
  ⟨.refl g, hfresh, .refl fs⟩

omit [Environment] in
theorem Undisturbed.inputs (h : Undisturbed planned t g fs g' fs') (hg : g.WellFormed) :
    g'.store.inputs t = g.store.inputs t :=
  h.graph.store.inputs hg.linked fun source hsource hpath => hpath source hsource rfl

/-- A call for another target does not disturb a target. -/
theorem Undisturbed.call (h : Undisturbed planned t g fs g' fs')
    (hg : g.WellFormed) (htree : fs.IsTree) (hcall : OtherCall planned t (g', fs') (g'', fs'')) :
    Undisturbed planned t g fs g'' fs'' := by
  have hinputs := h.inputs hg
  have hg' := hg.grows h.graph
  have htree' := h.tree.tree htree
  cases hcall with
  | plan _ _ lister hu =>
    obtain ⟨hgrows, hfresh, -⟩ := plan_graph hg' h.fresh fs' lister _
    exact ⟨h.graph.trans (hgrows.mono (Set.singleton_subset_iff.mpr hu) (Set.empty_subset _)),
      hfresh, h.tree⟩
  | run _ _ lister hu havoid =>
    obtain ⟨hgrows, hfresh, -⟩ := run_spec hg' h.fresh fs' lister _
    refine ⟨h.graph.trans (hgrows.mono (Set.singleton_subset_iff.mpr hu) ?_), hfresh,
      h.tree.trans (run_files_grows htree' g' lister _)⟩
    rintro path ⟨p, hp, hpath⟩ source hsource rfl
    rw [← hinputs] at hsource
    exact havoid p hp source hsource hpath

/-- Calls for other targets do not disturb a target. -/
theorem Undisturbed.calls {after : Graph × FileSystem} (h : Undisturbed planned t g fs g' fs')
    (hg : g.WellFormed) (htree : fs.IsTree)
    (hcalls : Relation.ReflTransGen (OtherCall planned t) (g', fs') after) :
    Undisturbed planned t g fs after.1 after.2 := by
  induction hcalls with
  | refl => exact h
  | tail _ hcall ih => exact ih.call hg htree hcall

/-- The plan of a target that was not disturbed matches the one before. -/
theorem Undisturbed.plan (h : Undisturbed planned t g fs g' fs') (hg : g.WellFormed)
    (hfresh : g.Fresh) (htree : fs.IsTree) (hanchored : g.Anchored fs t)
    (hlister : ResourceLister.Steady lister) (ht : t ∉ planned) :
    OutcomesMatch fs ((g.included t).KnownAlike t (g'.included t)) (g.plan fs lister t)
      (g'.plan fs' lister t) :=
  plan_alike hg hfresh h.fresh h.graph (fun source hsource hpath => hpath source hsource rfl)
    (face_of_unplanned h.graph ht) h.tree htree hlister hanchored

/-- After any calls for other targets the plan of a target is the same but for its dependencies, and
it is the same in every respect if the target names none of the planned steps, unless planning comes
to a loop of links at a path that led to a link before. -/
theorem plan_of_others (hg : g.WellFormed) (hfresh : g.Fresh) (htree : fs.IsTree)
    (hanchored : g.Anchored fs t) (hlister : ResourceLister.Steady lister) (ht : t ∉ planned)
    (hcalls : Relation.ReflTransGen (OtherCall planned t) (g, fs) (g', fs')) :
    let before := g.plan fs lister t
    let after := g'.plan fs' lister t
    (∃ text, after.result = .error (.path (.linkLoop text)) ∧ fs.Tangled text) ∨
      (∀ p, before.result = .ok p → after.diagnostics = before.diagnostics ∧
        ∃ q, after.result = .ok q ∧ { q with dependencies := p.dependencies } = p ∧
          q.render = p.render) ∧
      ((∀ u ∈ planned, (g.target u).autogenName ∉ (g.target t).properties.autogenTargetDepends ++
          (g.target t).utilities.toList ++ (g.target t).linkLibraries) →
        after.result = before.result ∧ after.diagnostics = before.diagnostics) := by
  intro before after
  have hundisturbed := (Undisturbed.refl hfresh fs).calls hg htree hcalls
  rcases hundisturbed.plan hg hfresh htree hanchored hlister ht with
    ⟨fault, ⟨text, rfl, htangled⟩, hfault⟩ | hmatch
  · exact .inl ⟨text, hfault, htangled⟩
  · refine .inr ⟨fun p hp => ?_, fun hnames => ?_⟩
    · obtain ⟨hsaid, q, hq, hplan⟩ := hmatch.plan p hp
      have hrender : ({ q with dependencies := p.dependencies } : Plan).render = q.render := rfl
      exact ⟨hsaid, q, hq, hplan, by rw [← hrender, hplan]⟩
    · exact hmatch.equal (knownAlike_of_unplanned hundisturbed.graph ht hnames)

end Graph

end

namespace Graph

attribute [local instance] Environment.plain

/-- A run of the tool makes the directory through which planning the program comes to a loop. -/
theorem plan_loopProject :
    loopProject.Fresh ∧ ∃ g fs, Relation.ReflTransGen (OtherCall {1} 0)
      (loopProject, loopTree) (g, fs) ∧
      (∃ p, (loopProject.plan loopTree declaredInputs 0).result = .ok p) ∧
      ∃ text, (g.plan fs declaredInputs 0).result = .error (.path (.linkLoop text)) := by
  obtain ⟨before, hbefore, -⟩ := run_loopProject (show 0 ∈ [0, 1] by decide)
  obtain ⟨r, hr, havoid, hloop⟩ := run_loopProject (show 1 ∈ [0, 1] by decide)
  have hcall :
      OtherCall {1} 0 (loopProject, loopTree) ((loopProject.run loopTree declaredInputs 1).graph,
      (loopProject.run loopTree declaredInputs 1).files) := by
    refine .run loopProject loopTree declaredInputs rfl fun p hp => ?_
    obtain rfl := Except.ok.inj ((run_emits hr).1.symm.trans hp)
    exact havoid
  refine ⟨fresh_loopProject, _, _, .single hcall, ⟨before.plan, (run_emits hbefore).1⟩, ?_⟩
  have hafter := (Undisturbed.refl fresh_loopProject loopTree).call wellFormed_loopProject
      isTree_loopTree hcall
  -- With the directory made first, planning fails whether the tool is run or not.
  have hmade : Undisturbed {1} 0 loopProject (loopTree.makeDirectories r.descriptor.parent).1
      (loopProject.run loopTree declaredInputs 1).graph
        (loopProject.run loopTree declaredInputs 1).files :=
    ⟨hafter.graph, hafter.fresh, grows_run_files isTree_loopTree hr⟩
  have htree := (makeDirectories_grows isTree_loopTree r.descriptor.parent).tree isTree_loopTree
  rcases hmade.plan wellFormed_loopProject fresh_loopProject htree (anchored_loopProject _)
      steady_declaredInputs (by simp) with ⟨fault, ⟨text, rfl, -⟩, hfault⟩ | hmatch
  · exact ⟨text, hfault⟩
  · have hnames : ∀ u ∈ ({1} : Set TargetId), (loopProject.target u).autogenName ∉
        (loopProject.target 0).properties.autogenTargetDepends ++
          (loopProject.target 0).utilities.toList ++ (loopProject.target 0).linkLibraries := by
      rintro u rfl
      decide
    exact ⟨"/w/b",
      (hmatch.equal (knownAlike_of_unplanned hmade.graph (by simp) hnames)).1.trans hloop⟩

/-- A tree without links. -/
def plainTree : FileSystem :=
  ⟨OrderedMap.ofList [(["w"], .directory)]⟩

/-- The program is planned after the tool was planned and run in a tree without links. -/
theorem plan_of_others_loopProject :
    ∃ g fs, Relation.ReflTransGen (OtherCall {1} 0) (loopProject, plainTree) (g, fs) ∧
      (∃ p, (loopProject.plan plainTree declaredInputs 0).result = .ok p ∧
        (g.plan fs declaredInputs 0).result = .ok p) ∧
      (g.plan fs declaredInputs 0).diagnostics =
        (loopProject.plan plainTree declaredInputs 0).diagnostics := by
  have hplan : OtherCall {1} 0 (loopProject, plainTree)
      ((loopProject.plan plainTree declaredInputs 1).graph, plainTree) :=
    .plan loopProject plainTree declaredInputs rfl
  have houtputs : ∀ p ∈ ((loopProject.plan plainTree declaredInputs 1).graph.plan plainTree
      declaredInputs 1).result.toOption, ∀ source ∈
        (loopProject.plan plainTree declaredInputs 1).graph.store.inputs 0,
          source.path ∉ p.generatedFiles.map (·.path) := by
    decide +kernel
  have hrun : OtherCall {1} 0 ((loopProject.plan plainTree declaredInputs 1).graph, plainTree) _ :=
    .run _ plainTree declaredInputs rfl fun p hp => houtputs p (by rw [hp]; rfl)
  have hnames : ∀ u ∈ ({1} : Set TargetId), (loopProject.target u).autogenName ∉
      (loopProject.target 0).properties.autogenTargetDepends ++
        (loopProject.target 0).utilities.toList ++ (loopProject.target 0).linkLibraries := by
    rintro u rfl
    decide
  have hcalls := (Relation.ReflTransGen.single hplan).tail hrun
  refine ⟨_, _, hcalls, ?_⟩
  have hplanned : (loopProject.plan plainTree declaredInputs 0).result.toOption.isSome := by
    decide +kernel
  have htree : plainTree.IsTree := isTree_of_entries (by decide)
  rcases plan_of_others wellFormed_loopProject fresh_loopProject htree (anchored_loopProject _)
      steady_declaredInputs (by simp) hcalls with ⟨text, -, htangled⟩ | ⟨-, hsame⟩
  · exact absurd htangled (not_tangled_of_entries (by simp) text)
  · obtain ⟨hresult, hsaid⟩ := hsame hnames
    refine ⟨?_, hsaid⟩
    cases hp : (loopProject.plan plainTree declaredInputs 0).result with
    | error fault =>
      rw [hp] at hplanned
      cases hplanned
    | ok p => exact ⟨p, rfl, hresult.trans hp⟩

end Graph

end Autogen
