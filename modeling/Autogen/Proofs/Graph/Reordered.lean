import Autogen.Graph.Basic
import Autogen.Proofs.Firsts
import Autogen.Proofs.Graph.Merged
import Mathlib.Data.List.Sort

/-!
# Graphs whose declarations are reordered

Some of what a project declares has no order: its configurations, compile definitions, and the
mappings from configurations to lists. Graphs that differ in the order alone, or in how often
something is declared, have the same settings in every configuration, and the same merged source
lists.

## Main definitions

* `Target.plain`, `Store.plain`, `Graph.plain` — what is left without the declarations that have no
  order.
* `Target.Reorders`, `Graph.Reorders` — the same declarations in another order.

## Main statements

* `Text.sortedDistinct_of_mem_iff` — sorting erases the order and the repetitions.
* `Target.Reorders.compileDefinitionsFor` and its siblings — the settings in a configuration.
* `Store.commonSources_plain` — merged source lists have nothing to do with these declarations.
-/

namespace Autogen

/-! ## Sorted texts -/

namespace Text

theorem pairwise_sorted (items : List String) :
    (sorted items).Pairwise fun a b => precedes a b = true :=
  @List.pairwise_mergeSort String precedes (fun _ _ _ => precedes_trans) precedes_total items

theorem sorted_of_perm {items items' : List String} (h : items'.Perm items) :
    sorted items' = sorted items := by
  have hperm : (sorted items').Perm (sorted items) :=
    (List.mergeSort_perm items' _).trans (h.trans (List.mergeSort_perm items _).symm)
  exact hperm.eq_of_pairwise (fun _ _ _ _ => precedes_antisymm) (pairwise_sorted items')
    (pairwise_sorted items)

/-- Sorting distinct texts erases their order and their repetitions. -/
theorem sortedDistinct_of_mem_iff {items items' : List String} (h : ∀ a, a ∈ items' ↔ a ∈ items) :
    sortedDistinct items' = sortedDistinct items :=
  sorted_of_perm (eraseDups_perm_of_mem_iff h)

end Text

/-! ## Declarations without an order -/

/-- A target without the declarations that have no order. -/
def Target.plain (x : Target) : Target :=
  { x with
    compileDefinitions := []
    configCompileDefinitions := .empty
    configIncludeDirectories := .empty
    properties := { x.properties with autouicConfigOptions := .empty } }

/-- The store without the declarations of targets that have no order. -/
def Store.plain (s : Store) : Store :=
  s.mapTargets Target.plain

/-- The graph without the declarations that have no order. -/
def Graph.plain (g : Graph) : Graph :=
  { g with settings := { g.settings with configurations := [] }, store := g.store.plain }

/-- A target with the same compile definitions as another one, in common and in each configuration,
and with the same lists by configuration, in whatever order these are declared. -/
structure Target.Reorders (x x' : Target) : Prop where
  definitions : ∀ definition, definition ∈ x'.compileDefinitions ↔ definition ∈ x.compileDefinitions
  configDefinitions : ∀ config definition,
    definition ∈ (x'.configCompileDefinitions.get? config).getD [] ↔
      definition ∈ (x.configCompileDefinitions.get? config).getD []
  configDirectories : ∀ config,
    x'.configIncludeDirectories.get? config = x.configIncludeDirectories.get? config
  configOptions : ∀ config,
    x'.properties.autouicConfigOptions.get? config = x.properties.autouicConfigOptions.get? config

/-- A graph with the same declarations as another one, some of them in another order. -/
structure Graph.Reorders (g g' : Graph) : Prop where
  plain : g'.plain = g.plain
  configurations : ∀ config, config ∈ g'.settings.configurations ↔
    config ∈ g.settings.configurations
  targets : ∀ t, (g.target t).Reorders (g'.target t)

/-! ## Settings in a configuration -/

namespace Target.Reorders

variable {x x' : Target}

theorem compileDefinitionsFor (h : x.Reorders x') :
    x'.compileDefinitionsFor = x.compileDefinitionsFor := by
  funext config
  refine Text.sortedDistinct_of_mem_iff fun definition => ?_
  rw [List.mem_append, List.mem_append, h.definitions, h.configDefinitions]

theorem includeDirectoriesFor (h : x.Reorders x') (hplain : x'.plain = x.plain) :
    x'.includeDirectoriesFor = x.includeDirectoriesFor := by
  have hcommon : x'.plain.includeDirectories = x.plain.includeDirectories := by rw [hplain]
  change x'.includeDirectories = x.includeDirectories at hcommon
  funext config
  rw [Target.includeDirectoriesFor, Target.includeDirectoriesFor, hcommon, h.configDirectories]

theorem autouicOptionsFor (h : x.Reorders x') (hplain : x'.plain = x.plain) :
    x'.autouicOptionsFor = x.autouicOptionsFor := by
  have hcommon : x'.plain.properties.autouicOptions = x.plain.properties.autouicOptions := by
    rw [hplain]
  change x'.properties.autouicOptions = x.properties.autouicOptions at hcommon
  funext config
  rw [Target.autouicOptionsFor, Target.autouicOptionsFor, hcommon, h.configOptions]

end Target.Reorders

theorem Graph.Reorders.mem_configurations {g g' : Graph} (h : g.Reorders g') (config : String) :
    config ∈ g'.configurations ↔ config ∈ g.configurations := by
  have hnone : g'.settings.configurations = [] ↔ g.settings.configurations = [] := by
    simp only [List.eq_nil_iff_forall_not_mem, h.configurations]
  unfold Graph.configurations
  by_cases hempty : g.settings.configurations = []
  · rw [hempty, hnone.mpr hempty]
  · rw [if_neg (by simpa using mt hnone.mp hempty), if_neg (by simpa using hempty)]
    exact h.configurations config

/-! ## Source lists -/

namespace Store

theorem target_plain (s : Store) (t : TargetId) : s.plain.target t = (s.target t).plain :=
  target_mapTargets rfl s t

theorem mergeLibraries_plain {listOf : TargetId → Store → List SourceId × Store}
    (hlist : ∀ library s, listOf library s.plain =
      ((listOf library s).1, (listOf library s).2.plain))
    (libraries : List TargetId) (merged : List SourceId) (s : Store) :
    mergeLibraries listOf libraries merged s.plain =
      ((mergeLibraries listOf libraries merged s).1,
        (mergeLibraries listOf libraries merged s).2.plain) := by
  induction libraries generalizing merged s with
  | nil => rfl
  | cons library rest ih =>
    rw [mergeLibraries, mergeLibraries, hlist]
    exact ih _ _

theorem commonSourcesWithin_plain (depth : Nat) (t : TargetId) (s : Store) :
    commonSourcesWithin depth t s.plain =
      ((commonSourcesWithin depth t s).1, (commonSourcesWithin depth t s).2.plain) := by
  induction depth generalizing t s with
  | zero =>
    rw [commonSourcesWithin, target_plain]
    rfl
  | succ depth ih =>
    have htarget : s.plain.target t = (s.target t).plain := target_plain s t
    have hmerge := mergeLibraries_plain (fun library s => ih library s) (s.target t).objectLibraries
      (s.target t).sources s
    rw [commonSourcesWithin, commonSourcesWithin, htarget]
    simp only [Target.plain, hmerge]
    generalize mergeLibraries (commonSourcesWithin depth) (s.target t).objectLibraries
      (s.target t).sources s
      = out
    have hremember : (out.2.modifyTarget t fun x => { x with sourceCache := some out.1 }).plain =
        out.2.plain.modifyTarget t fun x => { x with sourceCache := some out.1 } := by
      refine mapTargets_modifyTarget ?_ out.2 t
      exact fun _ => rfl
    split
    · rfl
    · rw [hremember]

/-- The merged source list of a target is computed and remembered in the same way. -/
theorem commonSources_plain (s : Store) (t : TargetId) :
    s.plain.commonSources t = ((s.commonSources t).1, (s.commonSources t).2.plain) := by
  have hlength : s.plain.targets.length = s.targets.length := List.length_map _
  rw [commonSources, commonSources, hlength]
  exact commonSourcesWithin_plain s.targets.length t s

end Store

namespace Graph

theorem target_plain (g : Graph) (t : TargetId) : g.plain.target t = (g.target t).plain :=
  Store.target_plain g.store t

end Graph

end Autogen
