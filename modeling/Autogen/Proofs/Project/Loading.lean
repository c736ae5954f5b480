import Autogen.Proofs.Graph.Sources
import Autogen.Proofs.Project.Reading

/-!
# Graphs of project descriptions

What holds of every graph that a project description stands for. A description is read in two
passes: the targets are declared one after another, and then their object libraries are linked by
name.

## Main definitions

* `Graph.declare` — the first pass.
* `Graph.Loaded` — what both passes keep.
* `Graph.Unlinked` — a graph in which no library is linked.
* `Graph.withTarget`, `Graph.Declares` — described targets, and what declaring them makes of a
  graph.
* `Graph.SameDeclarations` — what linking leaves alone.

## Main statements

* `Graph.ofMapping_eq` — reading a description is declaring its targets and linking their libraries.
* `Graph.Loaded.defineTargets`, `Graph.Loaded.linkTargets` — the two passes.
* `Graph.loaded_of_declare`, `Graph.loaded_of_mapping` — the graph of a description is loaded.
* `Graph.Loaded.wellFormed`, `Graph.Loaded.fresh` — what that means for planning.
-/

namespace Autogen

/-- A path that was taken from a base directory. -/
def IsAbsoluteText (text : String) : Prop :=
  (Path.ofString text).isAbsolute = true

theorem IsClean.isAbsoluteText {text : String} (h : IsClean text) : IsAbsoluteText text := by
  obtain ⟨p, habsolute, -, rfl⟩ := h
  rw [IsAbsoluteText, FileSystem.isAbsolute_ofString]
  exact FileSystem.startsAtRoot_text habsolute

/-- A target without its links and what it remembers. -/
def Target.unlinked (t : Target) : Target :=
  { t with objectLibraries := [], consumers := [], sourceCache := none }

/-- What a description says of a target itself: the target without its sources, its links and what
it remembers. -/
def Target.declared (t : Target) : Target :=
  { t.unlinked with sources := [] }

theorem Target.sound_declared {t : Target} : t.declared.Sound ↔ t.Sound :=
  ⟨fun h => ⟨h.sourceDir, h.binaryDir, h.includes, h.configIncludes, h.lists⟩,
    fun h => ⟨h.sourceDir, h.binaryDir, h.includes, h.configIncludes, h.lists⟩⟩

namespace Graph

variable {g g' g'' : Graph} {t : TargetId} {name : String} {d : TargetDefinition}

/-! ## Loaded graphs -/

/-- What holds of a graph while a project description is read. -/
structure Loaded (g : Graph) : Prop where
  linked : g.store.Linked
  registered : ∀ name t, g.targets.get? name = some t →
    t < g.store.targets.length ∧ (g.target t).name = name
  unremembered : ∀ t, (g.target t).sourceCache = none
  sourceDir : ∀ t < g.store.targets.length, IsAbsoluteText (g.target t).sourceDir
  paths : ∀ source ∈ g.store.sources, IsAbsoluteText source.path
  sourceIndex : g.sourceIndex = .empty
  utilitySteps : g.utilitySteps = .empty
  delimiter : g.settings.sourceGroupDelimiter ≠ ""

/-- A graph in which no library is linked. -/
def Unlinked (g : Graph) : Prop :=
  ∀ t, (g.target t).objectLibraries = [] ∧ (g.target t).consumers = []

theorem Loaded.wellFormed (h : g.Loaded) : g.WellFormed where
  linked := h.linked
  index path id hid := by
    rw [h.sourceIndex] at hid
    cases hid

theorem Loaded.fresh (h : g.Loaded) : g.Fresh := by
  intro t ids hids
  rw [show (g.store.target t).sourceCache = none from h.unremembered t] at hids
  cases hids

theorem loaded_ofSettings {settings : ProjectSettings} (h : settings.sourceGroupDelimiter ≠ "") :
    (ofSettings settings).Loaded ∧ (ofSettings settings).Unlinked := by
  refine ⟨⟨(wellFormed_ofSettings settings).linked, fun name t h => (by cases h), fun t => rfl,
    fun t ht => (by cases ht), fun source hsource => (by cases hsource), rfl, rfl, h⟩,
    fun t => ⟨rfl, rfl⟩⟩

theorem Loaded.withImported (hg : g.Loaded) (imported : OrderedMap String ImportedTarget) :
    { g with importedTargets := imported }.Loaded :=
  ⟨hg.linked, hg.registered, hg.unremembered, hg.sourceDir, hg.paths,
    hg.sourceIndex, hg.utilitySteps, hg.delimiter⟩

/-! ### Declaring targets -/

/-- Imported targets are registered, which leaves the rest of the graph alone. -/
theorem importTargets_eq_ok {imported : Fields} (h : importTargets imported g = .ok g') :
    ∃ done, g' = { g with importedTargets := done } := by
  induction imported generalizing g with
  | nil =>
    cases h
    exact ⟨_, rfl⟩
  | cons entry rest ih =>
    obtain ⟨name, location⟩ := entry
    unfold importTargets at h
    obtain ⟨name, -, h⟩ := bind_eq_ok.mp h
    obtain ⟨location, -, h⟩ := bind_eq_ok.mp h
    obtain ⟨added, hadded, h⟩ := bind_eq_ok.mp h
    have hadded := mapError_eq_ok.mp hadded
    unfold addImported at hadded
    split at hadded
    · cases hadded
    · cases hadded
      obtain ⟨done, heq⟩ := ih h
      exact ⟨done, heq⟩

theorem addTarget_eq_ok (h : g.addTarget t = .ok g') :
    g.isTaken (g.target t).name = false ∧
      g' = { g with targets := g.targets.insert (g.target t).name t } := by
  unfold addTarget at h
  simp only at h
  split at h
  · cases h
  · rename_i hfree
    exact ⟨Bool.not_eq_true _ ▸ hfree, (Except.ok.inj h).symm⟩

/-- The graph with a described target that is registered under a name. -/
def withTarget (g : Graph) (name : String) (d : TargetDefinition) : Graph :=
  { (g.define d).2 with targets := g.targets.insert name g.store.targets.length }

/-- What the store is like when a described target has been put into it. -/
theorem store_withTarget (g : Graph) (name : String) (d : TargetDefinition) :
    (g.withTarget name d).store.sources = g.store.sources ++ d.sources ∧
      (g.withTarget name d).store.targets.length = g.store.targets.length + 1 := by
  obtain ⟨hsources, hlen, -⟩ :=
    Store.addNewSources_spec (g.store.newTarget d.target).2 g.store.targets.length d.sources
  exact ⟨hsources, hlen.trans (by simp [Store.newTarget])⟩

/-- A part of a target that has nothing to do with its sources is that of the new target or the old
one. -/
theorem part_withTarget {α : Type} (part : Target → α)
    (hpart : ∀ x ids, part { x with sources := ids } = part x) (g : Graph) (name : String)
    (d : TargetDefinition) (u : TargetId) :
    part ((g.withTarget name d).target u) =
      if u = g.store.targets.length then part d.target else part (g.target u) := by
  obtain ⟨-, -, hparts⟩ :=
    Store.addNewSources_spec (g.store.newTarget d.target).2 g.store.targets.length d.sources
  rw [show (g.withTarget name d).target u = (((g.store.newTarget d.target).2.addNewSources
    g.store.targets.length d.sources).target u) from rfl, hparts part hpart, Store.target_newTarget]
  split <;> rfl

/-- A target that is described is put into the store and registered under its name, which is a new
one. -/
theorem defineTarget_eq_ok [Environment] {value : Value}
    (h : g.defineTarget name value = .ok (t, g')) :
    ∃ d, TargetDefinition.ofValue g.settings name value = .ok d ∧ g.isTaken name = false ∧
      g' = g.withTarget name d := by
  unfold defineTarget at h
  obtain ⟨d, hd, h⟩ := bind_eq_ok.mp h
  have hd := mapError_eq_ok.mp hd
  obtain ⟨-, hplain, -⟩ := (TargetDefinition.meets_ofValue g.settings name value).of_ok hd
  have hname : ((g.define d).2.target g.store.targets.length).name = name := by
    have hpart := part_withTarget Target.name (fun _ _ => rfl) g name d g.store.targets.length
    rw [if_pos rfl, hplain.name] at hpart
    exact hpart
  obtain ⟨added, hadded, h⟩ := bind_eq_ok.mp h
  have hadded : (g.define d).2.addTarget g.store.targets.length = .ok added :=
    mapError_eq_ok.mp hadded
  obtain ⟨hfree, hgraph⟩ := addTarget_eq_ok hadded
  rw [hname] at hfree hgraph
  cases h
  exact ⟨d, hd, hfree, hgraph⟩

theorem Loaded.withTarget (hg : g.Loaded) (hplain : d.Plain name) (hsound : d.Sound) :
    (g.withTarget name d).Loaded := by
  obtain ⟨hsources, hlen⟩ := g.store_withTarget name d
  have hnew : (g.store.newTarget d.target).2.Linked :=
    hg.linked.newTarget hplain.unlinked.1 hplain.unlinked.2 (by simp [hplain.sources])
  refine ⟨hnew.addNewSources _ _, fun other t h => ?_, fun t => ?_, fun t ht =>
    ?_, fun source hmem => ?_, hg.sourceIndex, hg.utilitySteps, hg.delimiter⟩
  · simp only [Graph.withTarget, OrderedMap.get?_insert] at h
    rw [hlen, part_withTarget Target.name fun _ _ => rfl]
    split at h
    · rename_i hname
      obtain rfl := Option.some.inj h
      exact ⟨Nat.lt_succ_self _, by rw [if_pos rfl, hplain.name, hname]⟩
    · obtain ⟨hlt, hold⟩ := hg.registered other t h
      exact ⟨hlt.trans (Nat.lt_succ_self _), by rw [if_neg hlt.ne, hold]⟩
  · rw [part_withTarget Target.sourceCache fun _ _ => rfl]
    split
    · exact hplain.unremembered
    · exact hg.unremembered t
  · rw [hlen] at ht
    rw [part_withTarget Target.sourceDir fun _ _ => rfl]
    split
    · exact hsound.target.sourceDir.isAbsoluteText
    · rename_i hne
      exact hg.sourceDir t (Nat.lt_of_le_of_ne (Nat.le_of_lt_succ ht) hne)
  · rw [hsources] at hmem
    rcases List.mem_append.mp hmem with hold | hown
    · exact hg.paths source hold
    · exact (hsound.sources source hown).path.isAbsoluteText

theorem Unlinked.withTarget (hfree : g.Unlinked) (hplain : d.Plain name) :
    (g.withTarget name d).Unlinked := by
  intro t
  rw [part_withTarget Target.objectLibraries fun _ _ =>
    rfl, part_withTarget Target.consumers fun _ _ => rfl]
  split
  · exact hplain.unlinked
  · exact hfree t

/-- A target that is as it was described, whatever it is linked to. -/
structure Realizes (g : Graph) (t : TargetId) (d : TargetDefinition) : Prop where
  target : (g.target t).declared = d.target.declared
  sources : g.store.ownSources t = SourceFile.firsts d.sources

/-- A target that was made from an entry of a description. -/
def IsDescribedBy [Environment] (g : Graph) (name : String) (t : TargetId) (entry : Value × Value) :
    Prop :=
  entry.1.plainText = .ok name ∧
    ∃ d, TargetDefinition.ofValue g.settings name entry.2 = .ok d ∧ g.Realizes t d

theorem IsDescribedBy.congr [Environment] {name : String} {entry : Value × Value}
    (h : g.IsDescribedBy name t entry) (hsettings : g'.settings = g.settings)
    (htarget : (g'.target t).unlinked = (g.target t).unlinked)
    (hsources : g'.store.ownSources t = g.store.ownSources t) : g'.IsDescribedBy name t entry := by
  obtain ⟨hname, d, hd, hmade⟩ := h
  refine ⟨hname, d, hsettings ▸ hd, ?_, hsources.trans hmade.sources⟩
  rw [Target.declared, htarget]
  exact hmade.target

/-- A graph to which described targets were added. -/
structure Declares [Environment] (described : Fields) (g g' : Graph) : Prop where
  settings : g'.settings = g.settings
  imported : g'.importedTargets = g.importedTargets
  length : g.store.targets.length ≤ g'.store.targets.length
  kept : ∀ t < g.store.targets.length, g'.target t = g.target t ∧ g'.store.ownSources t =
    g.store.ownSources t
  registered : ∀ name t, g.targets.get? name = some t → g'.targets.get? name = some t
  entries : ∀ entry ∈ described, ∃ name t, g'.targets.get? name = some t ∧
    g'.IsDescribedBy name t entry
  origin : ∀ name t, g'.targets.get? name = some t →
    g.targets.get? name = some t ∨ ∃ entry ∈ described, g'.IsDescribedBy name t entry
  names : ∀ name, g'.targets.contains name = true →
    g.targets.contains name = true ∨ g.importedTargets.contains name = false

theorem Declares.nil [Environment] (g : Graph) : g.Declares [] g :=
  ⟨rfl, rfl, le_rfl, fun _ _ => ⟨rfl, rfl⟩, fun _ _ h => h, nofun, fun _ _ h =>
    .inl h, fun _ h => .inl h⟩

theorem Declares.cons [Environment] {entry : Value × Value} (h : g.Declares [entry] g')
    (hg' : g'.Loaded) (h' : g'.Declares described g'') : g.Declares (entry :: described) g'' := by
  have hfirst {name : String} {t : TargetId} (ht : g'.targets.get? name = some t)
      (hentry : g'.IsDescribedBy name t entry) : g''.IsDescribedBy name t entry := by
    obtain ⟨htarget, hsources⟩ := h'.kept t (hg'.registered name t ht).1
    exact hentry.congr h'.settings (by rw [htarget]) hsources
  refine ⟨h'.settings.trans h.settings, h'.imported.trans h.imported, h.length.trans h'.length,
    fun t ht => ?_, fun name t ht => h'.registered name t (h.registered name t ht),
    fun other hother => ?_,
    fun name t ht => ?_, fun name hname => ?_⟩
  · obtain ⟨htarget, hsources⟩ := h.kept t ht
    obtain ⟨htarget', hsources'⟩ := h'.kept t (ht.trans_le h.length)
    exact ⟨htarget'.trans htarget, hsources'.trans hsources⟩
  · rcases List.mem_cons.mp hother with rfl | hother
    · obtain ⟨name, t, ht, hentry⟩ := h.entries other List.mem_cons_self
      exact ⟨name, t, h'.registered name t ht, hfirst ht hentry⟩
    · exact h'.entries other hother
  · rcases h'.origin name t ht with hold | ⟨other, hother, hentry⟩
    · refine (h.origin name t hold).imp_right fun ⟨other, hother, hentry⟩ => ?_
      obtain rfl := List.mem_singleton.mp hother
      exact ⟨other, List.mem_cons_self, hfirst hold hentry⟩
    · exact .inr ⟨other, List.mem_cons_of_mem _ hother, hentry⟩
  · rcases h'.names name hname with hold | hfree
    · exact h.names name hold
    · exact .inr (h.imported ▸ hfree)

/-- A new target is as it is described. -/
theorem Loaded.realizes_withTarget (hg : g.Loaded) (hplain : d.Plain name) :
    (g.withTarget name d).Realizes g.store.targets.length d := by
  have hnew : (g.store.newTarget d.target).2.Linked :=
    hg.linked.newTarget hplain.unlinked.1 hplain.unlinked.2 (by simp [hplain.sources])
  have hlt : g.store.targets.length < (g.store.newTarget d.target).2.targets.length := by
    simp [Store.newTarget]
  have hown : (g.store.newTarget d.target).2.ownSources g.store.targets.length = [] := by
    rw [Store.ownSources, Store.target_newTarget, if_pos rfl, hplain.sources, List.map_nil]
  constructor
  · rw [part_withTarget Target.declared fun _ _ => rfl, if_pos rfl]
  · refine (Store.ownSources_addNewSources hnew hlt d.sources).trans ?_
    simp [hown]

/-- A new target leaves the old ones as they are. -/
theorem Loaded.kept_withTarget (hg : g.Loaded) (name : String) (d : TargetDefinition)
    (ht : t < g.store.targets.length) : (g.withTarget name d).target t = g.target t ∧
      (g.withTarget name d).store.ownSources t = g.store.ownSources t := by
  have htarget : (g.withTarget name d).store.target t = g.store.target t :=
    (Store.target_addNewSources_of_ne (g.store.newTarget d.target).2 ht.ne d.sources).trans
      ((Store.target_newTarget _ _ _).trans (if_neg ht.ne))
  refine ⟨htarget, Store.ownSources_congr hg.linked (by rw [htarget]) fun id hid => ?_⟩
  rw [Store.source, Store.source, (g.store_withTarget name d).1]
  exact List.getD_append _ _ _ _ hid

theorem Loaded.declares_withTarget [Environment] {key value : Value} (hg : g.Loaded)
    (hname : key.plainText = .ok name) (hd : TargetDefinition.ofValue g.settings name value = .ok d)
    (hfresh : g.isTaken name = false) :
    g.Declares [(key, value)] (g.withTarget name d) := by
  obtain ⟨-, hplain, -⟩ := (TargetDefinition.meets_ofValue g.settings name value).of_ok hd
  obtain ⟨hfree, himported⟩ := Bool.or_eq_false_iff.mp hfresh
  have hdescribed : (g.withTarget name d).IsDescribedBy name g.store.targets.length (key, value) :=
    ⟨hname, d, hd, hg.realizes_withTarget hplain⟩
  have hget (other : String) : (g.withTarget name d).targets.get? other =
      if other = name then some g.store.targets.length else g.targets.get? other :=
    OrderedMap.get?_insert _ _ _ _
  refine ⟨rfl, rfl, (g.store_withTarget name d).2 ▸ Nat.le_succ _, fun u hu =>
    hg.kept_withTarget name d hu, fun other u hu => ?_, fun entry hentry => ?_, fun other u hu =>
      ?_, fun other hother => ?_⟩
  · rw [hget, if_neg]
    · exact hu
    · rintro rfl
      simp [OrderedMap.contains, hu] at hfree
  · obtain rfl := List.mem_singleton.mp hentry
    exact ⟨name, _, by rw [hget, if_pos rfl], hdescribed⟩
  · rw [hget] at hu
    split at hu
    · rename_i heq
      obtain rfl := Option.some.inj hu
      exact .inr ⟨_, List.mem_cons_self, heq ▸ hdescribed⟩
    · exact .inl hu
  · rcases OrderedMap.contains_insert.mp hother with hold | rfl
    · exact .inl hold
    · exact .inr himported

/-- Described targets are declared one after another. -/
theorem Loaded.defineTargets [Environment] {described : Fields} (hg : g.Loaded) (hfree : g.Unlinked)
    (h : defineTargets described g = .ok g') :
    g'.Loaded ∧ g'.Unlinked ∧ g.Declares described g' := by
  induction described generalizing g with
  | nil =>
    cases h
    exact ⟨hg, hfree, .nil _⟩
  | cons entry rest ih =>
    obtain ⟨key, value⟩ := entry
    unfold Graph.defineTargets at h
    obtain ⟨name, hname, h⟩ := bind_eq_ok.mp h
    obtain ⟨⟨t, next⟩, hnext, h⟩ := bind_eq_ok.mp h
    obtain ⟨d, hd, hfresh, rfl⟩ := defineTarget_eq_ok hnext
    obtain ⟨-, hplain, hsound⟩ := (TargetDefinition.meets_ofValue g.settings name value).of_ok hd
    have hnext := hg.withTarget hplain hsound
    obtain ⟨hdone, hfree', hdeclares⟩ := ih hnext (hfree.withTarget hplain) h
    exact ⟨hdone, hfree',
      (hg.declares_withTarget (mapError_eq_ok.mp hname) hd hfresh).cons hnext hdeclares⟩

/-- The settings of a project description. -/
def describedSettings (fields : Fields) : Except ProjectFault ProjectSettings :=
  match Value.field? "project" fields with
  | some (.map project) => (ProjectSettings.ofFields project).mapError .config
  | _ => .error (.config .projectMissing)

/-- The delimiter of source groups is never empty. -/
theorem delimiter_of_described {fields : Fields} {settings : ProjectSettings}
    (h : describedSettings fields = .ok settings) : settings.sourceGroupDelimiter ≠ "" := by
  unfold describedSettings at h
  split at h
  · exact ((ProjectSettings.meets_ofFields _).of_ok (mapError_eq_ok.mp h)).2.2
  · cases h

/-- The targets of a project description, and the graph in which they are declared and no library is
linked yet. -/
def declare [Environment] (fields : Fields) : Except ProjectFault (Fields × Graph) := do
  let settings ← describedSettings fields
  let imported ← sectionFields "imported_targets" .importedNotMapping fields
  let g ← importTargets imported (ofSettings settings)
  let targets ← sectionFields "targets" .targetsNotMapping fields
  return (targets, ← Graph.defineTargets targets g)

/-- Reading a project description is declaring its targets and then linking their libraries. -/
theorem ofMapping_eq [Environment] (fields : Fields) :
    ofMapping fields = declare fields >>= fun declared => linkTargets declared.1 declared.2 := by
  unfold ofMapping declare describedSettings
  rcases Value.field? "project" fields with _ | value
  · simp only [bind_assoc, pure_bind]
  · cases value <;> simp only [bind_assoc, pure_bind]

/-- The targets of a project description are declared in a graph without links. -/
theorem loaded_of_declare [Environment] {fields described : Fields}
    (h : declare fields = .ok (described, g)) :
    g.Loaded ∧ g.Unlinked ∧
      ∀ entry ∈ described, ∃ name t, entry.1.plainText = .ok name ∧
        g.targets.get? name = some t := by
  unfold declare at h
  obtain ⟨settings, hsettings, h⟩ := bind_eq_ok.mp h
  obtain ⟨imported, -, h⟩ := bind_eq_ok.mp h
  obtain ⟨start, hstart, h⟩ := bind_eq_ok.mp h
  obtain ⟨targets, -, h⟩ := bind_eq_ok.mp h
  obtain ⟨done, hdone, h⟩ := bind_eq_ok.mp h
  cases h
  obtain ⟨names, rfl⟩ := importTargets_eq_ok hstart
  obtain ⟨hloaded, hfree⟩ := loaded_ofSettings (delimiter_of_described hsettings)
  obtain ⟨hdone', hfree', hdeclares⟩ := (hloaded.withImported names).defineTargets hfree hdone
  refine ⟨hdone', hfree', fun entry hentry => ?_⟩
  obtain ⟨name, t, ht, hname, -⟩ := hdeclares.entries entry hentry
  exact ⟨name, t, hname, ht⟩

/-! ### Linking libraries -/

/-- Graphs with the same declarations. They may differ in the links of targets and in what is
remembered. -/
structure SameDeclarations (g g' : Graph) : Prop where
  settings : g'.settings = g.settings
  targets : g'.targets = g.targets
  imported : g'.importedTargets = g.importedTargets
  sources : g'.store.sources = g.store.sources
  length : g'.store.targets.length = g.store.targets.length
  target : ∀ u, (g'.target u).unlinked = (g.target u).unlinked

theorem SameDeclarations.refl (g : Graph) : g.SameDeclarations g :=
  ⟨rfl, rfl, rfl, rfl, rfl, fun _ => rfl⟩

theorem SameDeclarations.trans {g'' : Graph} (h : g.SameDeclarations g')
    (h' : g'.SameDeclarations g'') :
    g.SameDeclarations g'' :=
  ⟨h'.settings.trans h.settings, h'.targets.trans h.targets, h'.imported.trans h.imported,
    h'.sources.trans h.sources, h'.length.trans h.length, fun u => (h'.target u).trans (h.target u)⟩

/-- A part of the targets that has nothing to do with links and what is remembered. -/
theorem SameDeclarations.part {α : Type} (part : Target → α) (hpart : ∀ x, part x.unlinked = part x)
    (h : g.SameDeclarations g') (u : TargetId) : part (g'.target u) = part (g.target u) := by
  rw [← hpart, h.target, hpart]

/-- A link that is accepted changes the links and nothing else of what is declared. -/
theorem Loaded.linkLibrary {library : TargetId} (hg : g.Loaded) (ht : t < g.store.targets.length)
    (hlibrary : library < g.store.targets.length) (h : g.linkLibrary t library = .ok g') :
    g'.Loaded ∧ g.SameDeclarations g' := by
  obtain ⟨store, hlink, rfl⟩ := linkLibrary_eq_ok h
  obtain ⟨hsources, hlen⟩ := Store.sizes_linkLibrary hlink
  have hunlinked (u : TargetId) : (store.target u).unlinked = (g.target u).unlinked := by
    obtain ⟨-, -, ⟨-, rfl⟩ | ⟨-, rfl⟩⟩ := Store.linkLibrary_cases hlink
    · rfl
    · rw [Store.part_eq_of_bare Target.unlinked (fun _ => rfl) (Store.bare_clearSources _ t),
        Store.target_addLink ht hlibrary]
      rfl
  have hforgotten (u : TargetId) : (store.target u).sourceCache = none := by
    obtain ⟨-, -, ⟨-, rfl⟩ | ⟨-, rfl⟩⟩ := Store.linkLibrary_cases hlink
    · exact hg.unremembered u
    · rw [Store.clearSources, Store.target_forget, Store.target_addLink ht hlibrary]
      split
      · rfl
      · exact hg.unremembered u
  have hsame : g.SameDeclarations { g with store } := ⟨rfl, rfl, rfl, hsources, hlen, hunlinked⟩
  refine ⟨⟨hg.linked.linkLibrary ht hlibrary hlink, fun name u hu => ?_, hforgotten,
    fun u hu => ?_, ?_, hg.sourceIndex, hg.utilitySteps, hg.delimiter⟩, hsame⟩
  · obtain ⟨hlt, hold⟩ := hg.registered name u hu
    exact ⟨hlen ▸ hlt, (hsame.part Target.name (fun _ => rfl) u).trans hold⟩
  · rw [hsame.part Target.sourceDir fun _ => rfl]
    exact hg.sourceDir u (hlen ▸ hu)
  · simp only [hsources]
    exact hg.paths

theorem Loaded.linkNamed {names : List String} (hg : g.Loaded) (ht : t < g.store.targets.length)
    (h : linkNamed t names g = .ok g') : g'.Loaded ∧ g.SameDeclarations g' := by
  induction names generalizing g with
  | nil =>
    cases h
    exact ⟨hg, .refl _⟩
  | cons name rest ih =>
    unfold Graph.linkNamed at h
    split at h
    · cases h
    · rename_i library hlibrary
      obtain ⟨hlt, -⟩ := hg.registered name library hlibrary
      obtain ⟨next, hnext, h⟩ := bind_eq_ok.mp h
      obtain ⟨hloaded, hsame⟩ := hg.linkLibrary ht hlt (mapError_eq_ok.mp hnext)
      obtain ⟨hdone, hsame'⟩ := ih hloaded (hsame.length ▸ ht) h
      exact ⟨hdone, hsame.trans hsame'⟩

theorem findTarget_eq_ok {name : String} (h : g.findTarget name = .ok t) :
    g.targets.get? name = some t := by
  unfold findTarget at h
  split at h
  · cases h
    assumption
  · cases h

theorem Loaded.linkTargets {described : Fields} (hg : g.Loaded)
    (h : linkTargets described g = .ok g') :
    g'.Loaded ∧ g.SameDeclarations g' := by
  induction described generalizing g with
  | nil =>
    cases h
    exact ⟨hg, .refl _⟩
  | cons entry rest ih =>
    obtain ⟨key, value⟩ := entry
    unfold Graph.linkTargets at h
    obtain ⟨name, -, h⟩ := bind_eq_ok.mp h
    obtain ⟨t, ht, h⟩ := bind_eq_ok.mp h
    obtain ⟨libraries, -, h⟩ := bind_eq_ok.mp h
    obtain ⟨next, hnext, h⟩ := bind_eq_ok.mp h
    obtain ⟨hlt, -⟩ := hg.registered name t (findTarget_eq_ok (mapError_eq_ok.mp ht))
    obtain ⟨hloaded, hsame⟩ := hg.linkNamed hlt hnext
    obtain ⟨hdone, hsame'⟩ := ih hloaded h
    exact ⟨hdone, hsame.trans hsame'⟩

/-- The graph of a project description is well-formed, nothing is remembered in it, its paths are
absolute and no step is registered. -/
theorem loaded_of_mapping [Environment] {fields : Fields} (h : ofMapping fields = .ok g) :
    g.Loaded := by
  rw [ofMapping_eq] at h
  obtain ⟨⟨described, declared⟩, hdeclared, h⟩ := bind_eq_ok.mp h
  exact ((loaded_of_declare hdeclared).1.linkTargets h).1

end Graph

end Autogen
