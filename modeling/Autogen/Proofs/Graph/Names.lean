import Autogen.Proofs.Plan.Effects

/-!
# Names of a graph

A name is given to a target, to an imported target or to a utility step. Targets and imported
targets share one space of names, which steps respect when they are registered. Targets do not look
at the steps: a name belongs to both exactly if a target or an imported target came after a step of
its name.

## Main definitions

* `Graph.Registration`, `Graph.perform` — the calls that give names away, and what they make of a
  graph.
* `Graph.claimed` — the name that a call wants for a target or an imported target.
* `Graph.Doubled` — a name that has been given to a step and to something else.

## Main statements

* `Graph.isTaken_perform`, `Graph.contains_step_perform` — the names after one call.
* `Graph.doubled_perform` — the calls that double a name.
* `Graph.names_after_registrations` — the names after any calls.
-/

namespace Autogen.Graph

variable {g g' g'' : Graph} {name : String}

/-- A call that gives a name away. What the identities stand for may have changed before it in any
way. -/
inductive Registration where
  | edit (store : Store)
  | target (t : TargetId)
  | imported (x : ImportedTarget)
  | step (s : UtilityStep)
  | run (fs : FileSystem) (lister : ResourceLister) (t : TargetId)

/-- The graph after a call. A call that is refused changes nothing, and a run that fails on the way
leaves what it has done until then. -/
def perform [Environment] (g : Graph) : Registration → Graph
  | .edit store => { g with store }
  | .target t => (g.addTarget t).toOption.getD g
  | .imported x => (g.addImported x).toOption.getD g
  | .step s => (g.addUtilityStep s).toOption.getD g
  | .run fs lister t => (g.run fs lister t).graph

/-- The name that a call wants for a target or an imported target. -/
def claimed (g : Graph) : Registration → Option String
  | .target t => some (g.target t).name
  | .imported x => some x.name
  | _ => none

/-- A name that has been given to a step and to a target or an imported target. -/
def Doubled (g : Graph) (name : String) : Prop :=
  g.isTaken name ∧ g.utilitySteps.contains name

instance decidableDoubled (g : Graph) (name : String) : Decidable (g.Doubled name) :=
  inferInstanceAs (Decidable (_ ∧ _))

/-! ## Names in a run -/

/-- Graphs with the same names. -/
structure SameNames (g g' : Graph) : Prop where
  targets : g'.targets = g.targets
  importedTargets : g'.importedTargets = g.importedTargets
  utilitySteps : g'.utilitySteps = g.utilitySteps

theorem SameNames.refl (g : Graph) : g.SameNames g :=
  ⟨rfl, rfl, rfl⟩

theorem SameNames.trans (h : g.SameNames g') (h' : g'.SameNames g'') : g.SameNames g'' :=
  ⟨h'.targets.trans h.targets, h'.importedTargets.trans h.importedTargets,
    h'.utilitySteps.trans h.utilitySteps⟩

theorem SameNames.isTaken (h : g.SameNames g') (name : String) :
    g'.isTaken name = g.isTaken name := by
  rw [Graph.isTaken, Graph.isTaken, h.targets, h.importedTargets]

/-- Planning gives no name away. -/
theorem sameNames_plan [Environment] (g : Graph) (fs : FileSystem) (lister : ResourceLister)
    (t : TargetId) :
    g.SameNames (g.plan fs lister t).graph := by
  obtain ⟨store, files, heq⟩ := frame_plan g fs lister t
  rw [heq]
  exact ⟨rfl, rfl, rfl⟩

theorem sameNames_registerSource (g : Graph) (t : TargetId) (path : String) :
    g.SameNames (g.registerSource t path) := by
  obtain ⟨store, heq⟩ := frame_registerSource g t path
  rw [heq]
  exact ⟨rfl, rfl, rfl⟩

theorem sameNames_groupFile (e : Effects) (file : GeneratedFile) :
    e.graph.SameNames (groupFile e file).1.graph := by
  obtain ⟨groups, heq⟩ := frame_groupFile e file
  rw [heq]
  exact ⟨rfl, rfl, rfl⟩

/-- Registering files gives no name away, also when it stops on the way. -/
theorem sameNames_registerFiles (t : TargetId) (files : List GeneratedFile) (e : Effects) :
    e.graph.SameNames (registerFiles t e files).1.graph := by
  induction files generalizing e with
  | nil => exact .refl _
  | cons file rest ih =>
    have hfile := (sameNames_registerSource e.graph t file.path).trans
      (sameNames_groupFile { e with graph := e.graph.registerSource t file.path } file)
    rw [registerFiles]
    rcases hgroup : groupFile { e with graph := e.graph.registerSource t file.path } file with
      ⟨e', _ | fault⟩
    · rw [hgroup] at hfile
      exact hfile.trans (ih e')
    · rw [hgroup] at hfile
      exact hfile

/-- A run gives at most one name away, to a step. It is the name of no target and no imported
target. -/
theorem run_names [Environment] (g : Graph) (fs : FileSystem) (lister : ResourceLister)
    (t : TargetId) :
    g.SameNames (g.run fs lister t).graph ∨ ∃ name step, g.isTaken name = false ∧
      ({ g with utilitySteps := g.utilitySteps.insert name step } : Graph).SameNames
        (g.run fs lister t).graph := by
  have hplan := sameNames_plan g fs lister t
  rcases run_graph g fs lister t with ⟨fault, -, heq⟩ | ⟨p, -, heq⟩
  · rw [heq]
    exact .inl hplan
  · have hprepared : g.SameNames ((g.plan fs lister t).graph.prepared t p
        (g.plan fs lister t).diagnostics).graph := hplan.trans ⟨rfl, rfl, rfl⟩
    have hfiles := hprepared.trans (sameNames_registerFiles t p.generatedFiles _)
    rcases emit_cases (g.plan fs lister t).graph fs t p (g.plan fs lister t).diagnostics with
      ⟨-, fault, hemit⟩ | ⟨-, hfree, hemit⟩
    · rw [heq, hemit]
      exact .inl hfiles
    · rw [heq, hemit]
      simp only
      generalize (registerFiles t _ p.generatedFiles).1.graph = registered at hfiles hfree
      rw [hfiles.isTaken] at hfree
      refine .inr ⟨p.autogenTargetName, registered.generationStep (registered.target t) p, hfree,
        hfiles.targets, hfiles.importedTargets, ?_⟩
      rw [← hfiles.utilitySteps]
      rfl

/-! ## One call -/

theorem perform_target [Environment] (g : Graph) (t : TargetId) :
    g.perform (.target t) = if g.isTaken (g.target t).name then g
      else { g with targets := g.targets.insert (g.target t).name t } := by
  simp only [perform, addTarget]
  split <;> rfl

theorem perform_imported [Environment] (g : Graph) (x : ImportedTarget) :
    g.perform (.imported x) = if g.isTaken x.name then g
      else { g with importedTargets := g.importedTargets.insert x.name x } := by
  simp only [perform, addImported]
  split <;> rfl

theorem perform_step [Environment] (g : Graph) (s : UtilityStep) :
    g.perform (.step s) = if g.isTaken s.name then g
      else { g with utilitySteps := g.utilitySteps.insert s.name s } := by
  simp only [perform, addUtilityStep]
  split <;> rfl

/-- A name is taken if it was taken before or the call claims it. -/
theorem isTaken_perform [Environment] (g : Graph) (call : Registration) (name : String) :
    (g.perform call).isTaken name ↔ g.isTaken name ∨ g.claimed call = some name := by
  cases call with
  | edit store => simp [perform, claimed, isTaken]
  | target t =>
    rw [perform_target]
    split <;> grind [claimed, isTaken, OrderedMap.contains_insert]
  | imported x =>
    rw [perform_imported]
    split <;> grind [claimed, isTaken, OrderedMap.contains_insert]
  | step s =>
    rw [perform_step]
    split <;> simp [claimed, isTaken]
  | run fs lister t =>
    have htaken : (g.perform (.run fs lister t)).isTaken name = g.isTaken name := by
      rcases run_names g fs lister t with hsame | ⟨step, other, -, hsame⟩
      · exact hsame.isTaken name
      · exact hsame.isTaken name
    simp [htaken, claimed]

/-- A call that gives a name to a step claims none, and the name was not taken. -/
theorem contains_step_perform [Environment] {call : Registration}
    (h : (g.perform call).utilitySteps.contains name) :
    g.utilitySteps.contains name ∨ g.claimed call = none ∧ g.isTaken name = false := by
  cases call with
  | edit store => exact .inl h
  | target t =>
    rw [perform_target] at h
    split at h <;> exact .inl h
  | imported x =>
    rw [perform_imported] at h
    split at h <;> exact .inl h
  | step s =>
    rw [perform_step] at h
    split at h
    · exact .inl h
    · grind [claimed, OrderedMap.contains_insert]
  | run fs lister t =>
    rw [perform] at h
    rcases run_names g fs lister t with hsame | ⟨other, step, hfree, hsame⟩
    · rw [hsame.utilitySteps] at h
      exact .inl h
    · rw [hsame.utilitySteps] at h
      grind [claimed, OrderedMap.contains_insert]

/-- Steps keep their names. -/
theorem contains_step_perform_of_contains [Environment] (call : Registration)
    (h : g.utilitySteps.contains name) :
    (g.perform call).utilitySteps.contains name := by
  cases call with
  | edit store => exact h
  | target t =>
    rw [perform_target]
    split <;> exact h
  | imported x =>
    rw [perform_imported]
    split <;> exact h
  | step s =>
    rw [perform_step]
    split
    · exact h
    · exact OrderedMap.contains_insert.mpr (.inl h)
  | run fs lister t =>
    rw [perform]
    rcases run_names g fs lister t with hsame | ⟨other, step, -, hsame⟩
    · rwa [hsame.utilitySteps]
    · rw [hsame.utilitySteps]
      exact OrderedMap.contains_insert.mpr (.inl h)

/-- A name is doubled if it was doubled before or if the call claims a name that a step alone
has. -/
theorem doubled_perform [Environment] (g : Graph) (call : Registration) (name : String) :
    (g.perform call).Doubled name ↔ g.Doubled name ∨
      g.claimed call = some name ∧ g.isTaken name = false ∧ g.utilitySteps.contains name := by
  have htaken := isTaken_perform g call name
  have hsteps : (g.perform call).utilitySteps.contains name →
      g.utilitySteps.contains name ∨ g.claimed call = none ∧ g.isTaken name = false :=
    contains_step_perform
  have hkept : g.utilitySteps.contains name → (g.perform call).utilitySteps.contains name :=
    contains_step_perform_of_contains call
  grind [Doubled]

/-- No call gives a name to a target and an imported target. -/
theorem target_or_imported_perform [Environment] (call : Registration)
    (h : ¬(g.targets.contains name ∧ g.importedTargets.contains name)) :
    ¬((g.perform call).targets.contains name ∧ (g.perform call).importedTargets.contains name) := by
  cases call with
  | edit store => exact h
  | target t =>
    rw [perform_target]
    split <;> grind [isTaken, OrderedMap.contains_insert]
  | imported x =>
    rw [perform_imported]
    split <;> grind [isTaken, OrderedMap.contains_insert]
  | step s =>
    rw [perform_step]
    split <;> exact h
  | run fs lister t =>
    rw [perform]
    rcases run_names g fs lister t with hsame | ⟨other, step, -, hsame⟩
    · rwa [hsame.targets, hsame.importedTargets]
    · rwa [hsame.targets, hsame.importedTargets]

/-! ## Any calls -/

/-- From an empty graph on, whatever is called and whether it succeeds, no name is that of a target
and of an imported target. A name is that of a step and of one of the two exactly if, at some point,
a target or an imported target was registered under the name of a step. -/
theorem names_after_registrations [Environment] (settings : ProjectSettings)
    (calls : List Registration) (name : String) :
    ¬((calls.foldl perform (ofSettings settings)).targets.contains name ∧
        (calls.foldl perform (ofSettings settings)).importedTargets.contains name) ∧
      ((calls.foldl perform (ofSettings settings)).Doubled name ↔
        ∃ before call after, calls = before ++ call :: after ∧
          (before.foldl perform (ofSettings settings)).claimed call = some name ∧
          (before.foldl perform (ofSettings settings)).isTaken name = false ∧
          (before.foldl perform (ofSettings settings)).utilitySteps.contains name) := by
  induction calls using List.reverseRecOn with
  | nil => simp [Doubled, ofSettings, isTaken, OrderedMap.contains]
  | append_singleton calls call ih =>
    obtain ⟨hdisjoint, hdoubled⟩ := ih
    rw [List.foldl_append, List.foldl_cons, List.foldl_nil]
    refine ⟨target_or_imported_perform call hdisjoint, ?_⟩
    rw [doubled_perform, hdoubled]
    constructor
    · rintro (⟨before, first, after, rfl, hfirst⟩ | hlast)
      · exact ⟨before, first, after ++ [call], by simp, hfirst⟩
      · exact ⟨calls, call, [], rfl, hlast⟩
    · rintro ⟨before, first, after, hcalls, hfirst⟩
      rcases List.eq_nil_or_concat after with rfl | ⟨after, last, rfl⟩
      · obtain ⟨rfl, rfl⟩ : calls = before ∧ call = first := by simpa using hcalls
        exact .inr hfirst
      · refine .inl ⟨before, first, after, ?_, hfirst⟩
        have hsplit : calls ++ [call] = (before ++ first :: after) ++ [last] := by
          simpa using hcalls
        exact (List.append_inj' hsplit rfl).1

attribute [local instance] Environment.plain

/-- A target that is registered under the name of a step. -/
def lateTarget : List Registration :=
  [.edit { sources := [], targets :=
    [{ name := "app_autogen", sourceDir := "/src", binaryDir := "/build" }] },
    .step { name := "app_autogen", workingDirectory := "/build" }, .target 0]

/-- The name of a step is given to a target as well. -/
theorem doubled_lateTarget :
    (lateTarget.foldl perform (ofSettings { sourceDir := "/src", binaryDir := "/build" })).Doubled
      "app_autogen" := by
  decide

end Autogen.Graph
