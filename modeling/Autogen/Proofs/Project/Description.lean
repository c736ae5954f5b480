import Autogen.Proofs.Project.Loading

/-!
# Graphs and their descriptions

A project description gives a graph in which everything has its place in the description, or it is
refused by telling what is wrong with a value, a name or a library. Nothing else comes of it: no
look-up in the course of reading goes wrong.

## Main definitions

* `ProjectFault.IsRefusal` — a fault by which a description is refused.
* `Graph.Matches`, `Graph.WellDescribed` — a graph that goes with a description.

## Main statements

* `Graph.Loaded.meets_linkTargets` — the libraries of declared targets are looked up among these.
* `Graph.Declares.matches` — what is declared matches its description.
* `Graph.sound_of_mapping` — the targets of a project description are in order.
* `Graph.outcome_of_mapping` — what comes of a project description.
-/

namespace Autogen

/-! ## Refused descriptions -/

/-- A fault by which a description is refused: for a value, for a name that is given twice or for a
library. To look up a target in vain is none. -/
def ProjectFault.IsRefusal : ProjectFault → Prop
  | .config fault => fault.IsRefusal
  | .graph (.unknownTarget _ _) => False
  | .graph _ => True
  | .unknownLibrary _ _ => True

namespace Graph

open ProjectFault (IsRefusal)

variable {g g' : Graph} {t : TargetId} {described : Fields}

/-- What is read from a value in the course of reading a description. -/
theorem meets_config {α : Type} {P : α → Prop} {x : Except ConfigFault α}
    (h : Meets ConfigFault.IsRefusal P x) : Meets IsRefusal P (x.mapError ProjectFault.config) :=
  h.mapError fun _ => id

theorem meets_importTargets (imported : Fields) (g : Graph) :
    Meets IsRefusal (fun _ => True) (importTargets imported g) := by
  induction imported generalizing g with
  | nil => exact .ok trivial
  | cons entry rest ih =>
    refine (meets_config (meets_plainText _)).bind fun name _ _ => ?_
    refine (meets_config (meets_plainOr _ _)).bind fun location _ _ => ?_
    unfold addImported
    split
    · exact .error trivial
    · exact ih _

theorem meets_defineTargets [Environment] (described : Fields) (g : Graph) :
    Meets IsRefusal (fun _ => True) (defineTargets described g) := by
  induction described generalizing g with
  | nil => exact .ok trivial
  | cons entry rest ih =>
    have hdefine (name : String) (value : Value) :
        Meets IsRefusal (fun _ => True) (g.defineTarget name value) := by
      refine (meets_config (TargetDefinition.meets_ofValue _ _ _)).bind fun d _ _ => ?_
      unfold addTarget
      dsimp only
      split
      · exact .error trivial
      · exact .ok trivial
    refine (meets_config (meets_plainText _)).bind fun name _ _ => ?_
    exact (hdefine name entry.2).bind fun next _ _ => ih next.2

theorem meets_linkNamed (t : TargetId) (names : List String) (g : Graph) :
    Meets IsRefusal (fun _ => True) (linkNamed t names g) := by
  induction names generalizing g with
  | nil => exact .ok trivial
  | cons name rest ih =>
    unfold linkNamed
    split
    · exact .error trivial
    · unfold linkLibrary
      split
      · exact ih _
      · exact .error trivial

/-- Libraries are looked up under the names of the targets that are declared already. -/
theorem Loaded.meets_linkTargets (hg : g.Loaded)
    (hnames : ∀ entry ∈ described, ∃ name t, entry.1.plainText = .ok name ∧
      g.targets.get? name = some t) :
    Meets IsRefusal (fun _ => True) (Graph.linkTargets described g) := by
  induction described generalizing g with
  | nil => exact .ok trivial
  | cons entry rest ih =>
    obtain ⟨name, t, hname, ht⟩ := hnames entry List.mem_cons_self
    have hfind : Meets IsRefusal (fun u => u = t) ((g.findTarget name).mapError .graph) := by
      rw [findTarget, ht]
      exact .ok rfl
    refine (meets_config (meets_plainText _).self).bind fun other _ hother => ?_
    obtain rfl := Except.ok.inj (hname.symm.trans hother)
    refine hfind.bind fun u _ hu => ?_
    subst hu
    refine (meets_config (meets_toStrings _ _)).bind fun libraries _ _ => ?_
    refine (meets_linkNamed u libraries g).bind fun next hnext _ => ?_
    obtain ⟨hloaded, hsame⟩ := hg.linkNamed (hg.registered name u ht).1 hnext
    exact ih hloaded (hsame.targets ▸ fun other hother =>
      hnames other (List.mem_cons_of_mem _ hother))

/-! ## What comes of a description -/

/-- The targets of a graph are those of a description: an entry for each of them, and a target for
each entry, which is in order. -/
structure Matches [Environment] (g : Graph) (described : Fields) : Prop where
  tables : ∀ entry ∈ described, ∃ table, entry.2 = .map table ∧ IsTargetTable table
  registered : ∀ entry ∈ described, ∃ name t, g.targets.get? name = some t ∧
    g.IsDescribedBy name t entry
  origin : ∀ name t, g.targets.get? name = some t →
    ∃ entry ∈ described, g.IsDescribedBy name t entry

/-- The settings that a description gives, which are in order. -/
def AreSettings (fields : Fields) (settings : ProjectSettings) : Prop :=
  ∃ project, Value.field? "project" fields = some (.map project) ∧
    Recognised ProjectSettings.fieldNames project ∧
    ProjectSettings.ofFields project = .ok settings ∧
    ∀ list ∈ settings.lists, "" ∉ list

/-- A graph in which everything has its place in a description and is in order. -/
structure WellDescribed [Environment] (g : Graph) (fields : Fields) : Prop where
  names : ∀ name, g.targets.contains name = true → g.importedTargets.contains name = false
  settings : AreSettings fields g.settings
  described : ∃ described, sectionFields "targets" .targetsNotMapping fields = .ok described ∧
    g.Matches described
  targets : ∀ name t, g.targets.get? name = some t → (g.target t).Sound
  sources : ∀ name t, g.targets.get? name = some t →
    (∀ s ∈ g.store.ownSources t, s.Sound) ∧ ((g.store.ownSources t).map SourceFile.path).Nodup
  unremembered : ∀ t, (g.target t).sourceCache = none

theorem meets_describedSettings (fields : Fields) :
    Meets IsRefusal (AreSettings fields) (describedSettings fields) := by
  unfold describedSettings
  split
  · rename_i project hproject
    have hread := ProjectSettings.meets_ofFields project
    refine meets_config (hread.self.mono fun settings hsettings => ?_)
    obtain ⟨hkeys, hlists, -⟩ := hread.of_ok hsettings
    exact ⟨project, hproject, hkeys, hsettings, hlists⟩
  · exact .error (ConfigFault.isRefusal_iff.mpr (by simp))

theorem meets_sectionFields {fault : ConfigFault} (h : fault ≠ .noKeys)
    (name : String) (fields : Fields) :
    Meets IsRefusal (fun _ => True) (sectionFields name fault fields) := by
  unfold sectionFields
  split
  · exact .ok trivial
  · exact .ok trivial
  · exact .error (ConfigFault.isRefusal_iff.mpr h)

/-- The targets of a description are declared in a graph that has none before. -/
theorem meets_declare [Environment] (fields : Fields) :
    Meets IsRefusal (fun declared =>
      sectionFields "targets" .targetsNotMapping fields = .ok declared.1 ∧
      AreSettings fields declared.2.settings ∧
      ∃ start : Graph, start.targets = .empty ∧ start.Declares declared.1 declared.2)
      (declare fields) := by
  unfold declare
  refine (meets_describedSettings fields).bind fun settings hsettings hproject => ?_
  refine (meets_sectionFields (by simp) _ _).bind fun imported _ _ => ?_
  refine (meets_importTargets _ _).bind fun start hstart _ => ?_
  refine (meets_sectionFields (by simp) _ _).bind fun described hdescribed _ => ?_
  refine (meets_defineTargets _ _).bind fun g hg _ => .ok ?_
  obtain ⟨names, rfl⟩ := importTargets_eq_ok hstart
  obtain ⟨hloaded, hfree⟩ := loaded_ofSettings (delimiter_of_described hsettings)
  obtain ⟨-, -, hdeclares⟩ := (hloaded.withImported names).defineTargets hfree hg
  exact ⟨hdescribed, hdeclares.settings ▸ hproject, _, rfl, hdeclares⟩

/-- What is declared matches its description, whatever is linked to it later. -/
theorem Declares.matches [Environment] {start : Graph} (hempty : start.targets = .empty)
    (h : start.Declares described g) (hsame : g.SameDeclarations g') : g'.Matches described := by
  have hids (t : TargetId) : (g'.store.target t).sources = (g.store.target t).sources :=
    hsame.part Target.sources (fun _ => rfl) t
  have hsource : g'.store.source = g.store.source := funext fun id => by
    rw [Store.source, Store.source, hsame.sources]
  have hentry {name : String} {t : TargetId} {entry : Value × Value}
      (h : g.IsDescribedBy name t entry) :
      g'.IsDescribedBy name t entry := by
    refine h.congr hsame.settings (hsame.target t) ?_
    rw [Store.ownSources, Store.ownSources, hids, hsource]
  refine ⟨fun entry hmem => ?_, fun entry hmem => ?_, fun name t ht => ?_⟩
  · obtain ⟨name, t, -, -, d, hd, -⟩ := h.entries entry hmem
    exact ((TargetDefinition.meets_ofValue _ _ _).of_ok hd).1
  · obtain ⟨name, t, ht, hdescribed⟩ := h.entries entry hmem
    exact ⟨name, t, hsame.targets ▸ ht, hentry hdescribed⟩
  · rw [hsame.targets] at ht
    obtain hold | ⟨entry, hmem, hdescribed⟩ := h.origin name t ht
    · rw [hempty] at hold
      cases hold
    · exact ⟨entry, hmem, hentry hdescribed⟩

/-- A target that was made from an entry of a description is in order, and so are its sources. -/
theorem IsDescribedBy.sound [Environment] {name : String} {entry : Value × Value}
    (h : g.IsDescribedBy name t entry) :
    (g.target t).Sound ∧ (∀ s ∈ g.store.ownSources t, s.Sound) ∧
      ((g.store.ownSources t).map SourceFile.path).Nodup := by
  obtain ⟨-, d, hd, hmade⟩ := h
  obtain ⟨-, -, hsound⟩ := (TargetDefinition.meets_ofValue _ _ _).of_ok hd
  rw [hmade.sources]
  refine ⟨Target.sound_declared.mp (hmade.target ▸ Target.sound_declared.mpr hsound.target), ?_,
    SourceFile.nodup_paths_firsts _⟩
  exact fun s hs => hsound.sources s (SourceFile.firsts_subset _ hs)

/-- The targets of a project description are in order. -/
theorem sound_of_mapping [Environment] {fields : Fields} (h : ofMapping fields = .ok g)
    {name : String} (ht : g.targets.get? name = some t) : (g.target t).Sound := by
  rw [ofMapping_eq] at h
  obtain ⟨⟨described, declared⟩, hdeclare, hlinked⟩ := bind_eq_ok.mp h
  obtain ⟨-, -, start, hempty, hdeclares⟩ := (meets_declare fields).of_ok hdeclare
  obtain ⟨hdeclared, -, -⟩ := loaded_of_declare hdeclare
  obtain ⟨-, hsame⟩ := hdeclared.linkTargets hlinked
  obtain ⟨entry, -, hdescribed⟩ := (hdeclares.matches hempty hsame).origin name t ht
  exact hdescribed.sound.1

/-- What comes of a project description, whatever values it holds: a graph in which everything has
its place, or a refusal. -/
theorem outcome_of_mapping [Environment] (fields : Fields) :
    Meets IsRefusal (fun g => g.WellDescribed fields) (ofMapping fields) := by
  rw [ofMapping_eq]
  refine (meets_declare fields).bind fun ⟨described, g⟩ hdeclare hdeclared => ?_
  obtain ⟨hdescribed, hproject, start, hempty, hdeclares⟩ := hdeclared
  obtain ⟨hg, -, hnames⟩ := loaded_of_declare hdeclare
  refine ((hg.meets_linkTargets hnames).self).mono fun g' hlinked => ?_
  obtain ⟨hg', hsame⟩ := hg.linkTargets hlinked
  have hmatches := hdeclares.matches hempty hsame
  refine ⟨fun name hname => ?_, hsame.settings ▸ hproject, ⟨described, hdescribed, hmatches⟩,
    fun name t ht => ?_, fun name t ht => ?_, hg'.unremembered⟩
  · rw [hsame.targets] at hname
    rw [hsame.imported, hdeclares.imported]
    exact (hdeclares.names name hname).resolve_left (by simp [hempty, OrderedMap.contains])
  · obtain ⟨entry, -, h⟩ := hmatches.origin name t ht
    exact h.sound.1
  · obtain ⟨entry, -, h⟩ := hmatches.origin name t ht
    exact h.sound.2

end Graph

end Autogen
