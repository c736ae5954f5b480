import Autogen.Proofs.Graph.Linking
import Autogen.Proofs.Project.Loading

/-!
# Libraries that a description names

A project description names the object libraries of its targets. They are linked in the order of the
description, and linking stops at the first link that would close a cycle. Whether there is one does
not depend on that order: it is found exactly when the targets name each other in a cycle.

## Main definitions

* `Graph.Names` — the libraries that a description names.
* `Graph.Linkable` — a description that names its own targets only.

## Main statements

* `Graph.links_of_mapping` — which descriptions are refused for a cycle.
* `Graph.links_in_order` — links that are asked for one after another, and those of a description.
-/

namespace Autogen

open Relation

/-- Whether texts can be read from a value has nothing to do with what the value is called. -/
theorem toStrings_eq_ok {name other : Option String} {value : Value} {texts : List String}
    (h : value.toStrings name = .ok texts) : value.toStrings other = .ok texts := by
  have hitems {items : List Value} {texts : List String}
      (h : Value.itemStrings name items = .ok texts) :
      Value.itemStrings other items = .ok texts := by
    induction items generalizing texts with
    | nil => exact h
    | cons item rest ih =>
      cases item
      case string | bytes =>
        obtain ⟨later, hlater, h⟩ := bind_eq_ok.mp h
        exact bind_eq_ok.mpr ⟨later, ih hlater, h⟩
      all_goals cases h
  cases value
  case list items => exact hitems h
  case null | string | bytes => exact h
  all_goals cases h

namespace Graph

variable {g g' : Graph} {t library : TargetId} {described : Fields}

/-- The names of the object libraries in the description of a target. -/
def libraryNames (value : Value) : Except ConfigFault (List String) :=
  (Value.field "object_libraries" (fieldsOf value)).toStrings none

/-- The described target of one name names the other one as an object library. -/
def Names (described : Fields) (target library : String) : Prop :=
  ∃ entry ∈ described, entry.1.plainText = .ok target ∧
    ∃ names, libraryNames entry.2 = .ok names ∧ library ∈ names

/-- A description of targets whose libraries can be read and are described targets. -/
def Linkable (described : Fields) : Prop :=
  ∀ entry ∈ described, ∃ names, libraryNames entry.2 = .ok names ∧
    ∀ name ∈ names, ∃ other ∈ described, other.1.plainText = .ok name

/-- Links between targets whose names are related. -/
def LinksWithin (r : String → String → Prop) (g : Graph) : Prop :=
  ∀ t u, g.store.Uses t u → r (g.target t).name (g.target u).name

variable {r : String → String → Prop}

theorem LinksWithin.reaches (h : g.LinksWithin r) {t u : TargetId} (hreach : g.store.Reaches t u) :
    TransGen r (g.target t).name (g.target u).name :=
  hreach.lift (fun t => (g.target t).name) h

/-- A graph that was made from another one by linking related targets. -/
structure Extends (r : String → String → Prop) (g g' : Graph) : Prop where
  loaded : g'.Loaded
  targets : g'.targets = g.targets
  within : g'.LinksWithin r
  uses : ∀ t u, g.store.Uses t u → g'.store.Uses t u

theorem Extends.refl (hg : g.Loaded) (hwithin : g.LinksWithin r) : g.Extends r g :=
  ⟨hg, rfl, hwithin, fun _ _ => id⟩

theorem Extends.trans {g'' : Graph} (h : g.Extends r g') (h' : g'.Extends r g'') :
    g.Extends r g'' :=
  ⟨h'.loaded, h'.targets.trans h.targets, h'.within, fun t u huse => h'.uses t u (h.uses t u huse)⟩

/-- Linking that comes to a graph with the given links, or to a cycle that the relation has, too. -/
def LinkedOrCycle (r : String → String → Prop) (g : Graph) (added : Graph → Prop)
    (result : Except ProjectFault Graph) : Prop :=
  (∃ g', result = .ok g' ∧ g.Extends r g' ∧ added g') ∨
    (∃ cycle, result = .error (.graph (.libraryCycle cycle))) ∧ ∃ name, TransGen r name name

/-- A library that is related to a target is linked to it, or the relation has a cycle. -/
theorem Loaded.linkLibrary_within (hg : g.Loaded) (hwithin : g.LinksWithin r)
    (ht : t < g.store.targets.length) (hlibrary : library < g.store.targets.length)
    (hr : r (g.target t).name (g.target library).name) :
    LinkedOrCycle r g (fun g' => g'.store.Uses t library)
      ((g.linkLibrary t library).mapError .graph) := by
  by_cases hcycle : library = t ∨ g.store.Reaches library t
  · right
    refine ⟨⟨⟨(g.target library).name, (g.target t).name⟩, ?_⟩, (g.target t).name, ?_⟩
    · rw [Graph.linkLibrary, hg.linked.linkLibrary_eq_error.mpr hcycle]
      rfl
    · rcases hcycle with rfl | hreach
      · exact .single hr
      · exact .head hr (hwithin.reaches hreach)
  · left
    obtain ⟨store, hlink, huses⟩ := hg.linked.linkLibrary_eq_ok ht hlibrary hcycle
    have hok : g.linkLibrary t library = .ok { g with store } := by rw [Graph.linkLibrary, hlink]
    obtain ⟨hloaded, hsame⟩ := hg.linkLibrary ht hlibrary hok
    have hname := hsame.part Target.name fun _ => rfl
    refine ⟨{ g with store }, by rw [hok]; rfl, ⟨hloaded, hsame.targets, ?_, ?_⟩, ?_⟩
    · intro a b huse
      rw [hname, hname]
      rcases (huses a b).mp huse with hold | ⟨rfl, rfl⟩
      · exact hwithin a b hold
      · exact hr
    · exact fun a b hold => (huses a b).mpr (.inl hold)
    · exact (huses t library).mpr (.inr ⟨rfl, rfl⟩)

theorem Loaded.lt (hg : g.Loaded) {name : String} (h : g.targets.get? name = some t) :
    t < g.store.targets.length ∧ (g.target t).name = name :=
  hg.registered name t h

/-- Libraries whose names are related to that of a target are linked to it one after another, or the
relation has a cycle. -/
theorem Loaded.linkNamed_within {name : String} {names : List String} (hg : g.Loaded)
    (hwithin : g.LinksWithin r) (ht : g.targets.get? name = some t)
    (hnames : ∀ other ∈ names, r name other ∧ ∃ library, g.targets.get? other = some library) :
    LinkedOrCycle r g (fun g' => ∀ other ∈ names, ∀ library, g.targets.get? other = some library →
      g'.store.Uses t library) (Graph.linkNamed t names g) := by
  induction names generalizing g with
  | nil => exact .inl ⟨g, rfl, .refl hg hwithin, by simp⟩
  | cons other rest ih =>
    obtain ⟨hr, library, hlibrary⟩ := hnames other List.mem_cons_self
    obtain ⟨hlt, hname⟩ := hg.lt ht
    obtain ⟨hlt', hname'⟩ := hg.lt hlibrary
    unfold Graph.linkNamed
    rw [hlibrary]
    rcases hg.linkLibrary_within hwithin hlt hlt' (by rwa [hname, hname']) with
      ⟨next, heq, hnext, huse⟩ | ⟨⟨cycle, heq⟩, hcycle⟩
    · simp only [heq]
      rcases ih hnext.loaded hnext.within (by rw [hnext.targets, ht]) (by
          intro later hlater
          rw [hnext.targets]
          exact hnames later (List.mem_cons_of_mem _ hlater)) with
        ⟨done, hdone, hextends, hadded⟩ | hfails
      · refine .inl ⟨done, hdone, hnext.trans hextends, ?_⟩
        intro later hlater u hu
        rcases List.mem_cons.mp hlater with rfl | hlater
        · obtain rfl := Option.some.inj (hlibrary.symm.trans hu)
          exact hextends.uses t library huse
        · exact hadded later hlater u (by rw [hnext.targets, hu])
      · exact .inr hfails
    · simp only [heq]
      exact .inr ⟨⟨cycle, rfl⟩, hcycle⟩

/-- The libraries that described targets name are linked one after another, or the names make a
cycle. -/
theorem Loaded.linkTargets_within {rest : Fields} (hg : g.Loaded)
    (hwithin : g.LinksWithin (Names described))
    (hregistered : ∀ entry ∈ described, ∃ name t, entry.1.plainText = .ok name ∧
      g.targets.get? name = some t)
    (hlinkable : Linkable described) (hrest : rest ⊆ described) :
    LinkedOrCycle (Names described) g (fun g' => ∀ a b, Names rest a b →
      ∃ t u, g.targets.get? a = some t ∧ g.targets.get? b = some u ∧ g'.store.Uses t u)
      (Graph.linkTargets rest g) := by
  induction rest generalizing g with
  | nil =>
    refine .inl ⟨g, rfl, .refl hg hwithin, ?_⟩
    rintro a b ⟨entry, hentry, -⟩
    cases hentry
  | cons entry rest ih =>
    obtain ⟨key, value⟩ := entry
    have hmem : (key, value) ∈ described := hrest List.mem_cons_self
    obtain ⟨name, t, hname, ht⟩ := hregistered (key, value) hmem
    obtain ⟨names, hread, hknown⟩ := hlinkable (key, value) hmem
    -- Every library that is named is a described target, so it is registered.
    have hlibraries : ∀ other ∈ names, Names described name other ∧
        ∃ library, g.targets.get? other = some library := by
      intro other hother
      refine ⟨⟨(key, value), hmem, hname, names, hread, hother⟩, ?_⟩
      obtain ⟨entry, hentry, hplain⟩ := hknown other hother
      obtain ⟨name', u, hname', hu⟩ := hregistered entry hentry
      obtain rfl := Except.ok.inj (hplain.symm.trans hname')
      exact ⟨u, hu⟩
    have hfind : g.findTarget name = .ok t := by rw [findTarget, ht]
    have hlabelled : (Value.field "object_libraries" (fieldsOf value)).toStrings
        (some ((g.target t).name ++ ".object_libraries")) = .ok names := toStrings_eq_ok hread
    unfold Graph.linkTargets
    simp only at hname
    simp only [hname, hfind, hlabelled, mapError_ok, bind, Except.bind]
    rcases hg.linkNamed_within hwithin ht hlibraries
      with ⟨next, heq, hnext, huses⟩ | ⟨⟨cycle, heq⟩, hcycle⟩
    · simp only [heq]
      rcases ih hnext.loaded hnext.within (by rwa [hnext.targets])
          (fun entry hentry => hrest (List.mem_cons_of_mem _ hentry)) with
        ⟨done, hdone, hextends, hadded⟩ | hfails
      · refine .inl ⟨done, hdone, hnext.trans hextends, ?_⟩
        rintro a b ⟨entry, hentry, ha, others, hothers, hb⟩
        rcases List.mem_cons.mp hentry with rfl | hentry
        · obtain rfl := Except.ok.inj (hname.symm.trans ha)
          obtain rfl := Except.ok.inj (hread.symm.trans hothers)
          obtain ⟨-, library, hlibrary⟩ := hlibraries b hb
          exact ⟨t, library, ht, hlibrary, hextends.uses t library (huses b hb library hlibrary)⟩
        · rw [← hnext.targets]
          exact hadded a b ⟨entry, hentry, ha, others, hothers, hb⟩
      · exact .inr hfails
    · simp only [heq]
      exact .inr ⟨⟨cycle, rfl⟩, hcycle⟩

/-- Chains of names are chains of links where every name is linked. -/
theorem reaches_of_names {a b : String}
    (huses : ∀ a b, Names described a b →
      ∃ t u, g.targets.get? a = some t ∧ g.targets.get? b = some u ∧ g'.store.Uses t u)
    (h : TransGen (Names described) a b) :
    ∃ t u, g.targets.get? a = some t ∧ g.targets.get? b = some u ∧ g'.store.Reaches t u := by
  induction h with
  | single hab =>
    obtain ⟨t, u, ht, hu, huse⟩ := huses _ _ hab
    exact ⟨t, u, ht, hu, .single huse⟩
  | tail _ hbc ih =>
    obtain ⟨t, u, ht, hu, hreach⟩ := ih
    obtain ⟨u', v, hu', hv, huse⟩ := huses _ _ hbc
    obtain rfl := Option.some.inj (hu.symm.trans hu')
    exact ⟨t, v, ht, hv, .tail hreach huse⟩

/-- A description is refused for a cycle exactly when its targets name each other in one, and
otherwise it stands for a graph. -/
theorem links_of_mapping [Environment] {fields : Fields}
    (hdeclared : declare fields = .ok (described, g)) (hlinkable : Linkable described) :
    ((∃ cycle, ofMapping fields = .error (.graph (.libraryCycle cycle))) ↔
        ∃ name, TransGen (Names described) name name) ∧
      ((∃ g', ofMapping fields = .ok g') ↔ ∀ name, ¬ TransGen (Names described) name name) := by
  obtain ⟨hg, hfree, hregistered⟩ := loaded_of_declare hdeclared
  have hwithin : g.LinksWithin (Names described) := by
    intro t u huse
    rw [Store.Uses, show (g.store.target t).objectLibraries = [] from (hfree t).1] at huse
    cases huse
  have hmapping : ofMapping fields = linkTargets described g := by
    rw [ofMapping_eq, hdeclared]
    rfl
  rw [hmapping]
  rcases hg.linkTargets_within hwithin hregistered hlinkable (List.Subset.refl _) with
    ⟨done, heq, hextends, huses⟩ | ⟨⟨cycle, heq⟩, hcycle⟩
  · have hacyclic : ∀ name, ¬ TransGen (Names described) name name := by
      intro name hname
      obtain ⟨t, u, ht, hu, hreach⟩ := reaches_of_names huses hname
      obtain rfl := Option.some.inj (ht.symm.trans hu)
      exact hextends.loaded.linked.acyclic t hreach
    simp [heq, hacyclic]
  · obtain ⟨name, hname⟩ := hcycle
    rw [heq]
    refine ⟨⟨fun _ => ⟨name, hname⟩, fun _ => ⟨cycle, rfl⟩⟩, ?_, ?_⟩
    · rintro ⟨g', h⟩
      cases h
    · exact fun hacyclic => absurd hname (hacyclic name)

/-- Object libraries never form a cycle. Whatever links are asked for between targets that have
none, a link is refused exactly when it would close a cycle, a link that is refused changes nothing,
the two ends of links agree, and walks along links are never cut short. So a project description
that is fine but for its libraries and names its own targets only is refused for a cycle exactly
when its targets name each other in one, which does not depend on their order. -/
theorem links_in_order [Environment] :
    (∀ (s : Store) (calls : List (TargetId × TargetId)),
      (∀ x ∈ s.targets, x.objectLibraries = [] ∧ x.consumers = []) →
      (∀ x ∈ s.targets, ∀ id ∈ x.sources, id < s.sources.length) →
      (∀ call ∈ calls, call.1 < s.targets.length ∧ call.2 < s.targets.length) →
      (calls.foldl Store.tryLink s).LinksInOrder) ∧
    ∀ (fields described : Fields) (g : Graph), declare fields = .ok (described, g) →
      Linkable described →
      ((∃ cycle, ofMapping fields = .error (.graph (.libraryCycle cycle))) ↔
          ∃ name, TransGen (Names described) name name) ∧
        ((∃ g', ofMapping fields = .ok g') ↔ ∀ name, ¬ TransGen (Names described) name name) :=
  ⟨fun _ _ hlinks hsources hcalls => Store.linksInOrder_of_calls hlinks hsources hcalls,
    fun _ _ _ hdeclared hlinkable => links_of_mapping hdeclared hlinkable⟩

theorem described_of_declare [Environment] {fields : Fields}
    (h : declare fields = .ok (described, g)) :
    sectionFields "targets" .targetsNotMapping fields = .ok described := by
  unfold declare at h
  obtain ⟨_, -, h⟩ := bind_eq_ok.mp h
  obtain ⟨_, -, h⟩ := bind_eq_ok.mp h
  obtain ⟨_, -, h⟩ := bind_eq_ok.mp h
  obtain ⟨targets, htargets, h⟩ := bind_eq_ok.mp h
  obtain ⟨_, -, h⟩ := bind_eq_ok.mp h
  cases h
  exact htargets

attribute [local instance] Environment.plain

/-- The targets of a project that name each other as object libraries. -/
def mutualTargets : Fields :=
  [(.string "a", .map [(.string "object_libraries", .list [.string "b"])]),
    (.string "b", .map [(.string "object_libraries", .list [.string "a"])])]

/-- A project of two targets that name each other as object libraries. -/
def mutualProject : Fields :=
  [(.string "project", .map [(.string "source_dir", .string "/w/src"),
      (.string "binary_dir", .string "/w/build")]),
    (.string "targets", .map mutualTargets)]

theorem names_mutualTargets :
    Linkable mutualTargets ∧ Names mutualTargets "a" "b" ∧ Names mutualTargets "b" "a" := by
  have hfirst : mutualTargets[0] ∈ mutualTargets := List.getElem_mem _
  have hsecond : mutualTargets[1] ∈ mutualTargets := List.getElem_mem _
  refine ⟨?_, ⟨_, hfirst, rfl, ["b"], rfl, by decide⟩, ⟨_, hsecond, rfl, ["a"], rfl, by decide⟩⟩
  intro entry hentry
  simp only [mutualTargets, List.mem_cons, List.not_mem_nil, or_false] at hentry
  rcases hentry with rfl | rfl
  · refine ⟨["b"], rfl, fun name hname => ⟨_, hsecond, ?_⟩⟩
    rw [List.mem_singleton.mp hname]
    rfl
  · refine ⟨["a"], rfl, fun name hname => ⟨_, hfirst, ?_⟩⟩
    rw [List.mem_singleton.mp hname]
    rfl

/-- Of two targets that ask for each other the second one is refused, and so is their project. -/
theorem links_in_order_mutualProject :
    ([(0, 1), (1, 0)].foldl Store.tryLink ⟨[], [default, default]⟩).LinksInOrder ∧
    ∃ cycle, ofMapping mutualProject = .error (.graph (.libraryCycle cycle)) := by
  obtain ⟨hstore, hmapping⟩ := links_in_order
  refine ⟨hstore _ _ (by decide) (by decide) (by decide), ?_⟩
  have hdeclares : ∃ declared, declare mutualProject = .ok declared := by decide +kernel
  obtain ⟨⟨described, g⟩, hdeclared⟩ := hdeclares
  have hsection : sectionFields "targets" .targetsNotMapping mutualProject =
      .ok mutualTargets := rfl
  obtain rfl := Except.ok.inj (hsection.symm.trans (described_of_declare hdeclared))
  obtain ⟨hlinkable, hab, hba⟩ := names_mutualTargets
  exact (hmapping _ _ _ hdeclared hlinkable).1.mpr ⟨"a", .tail (.single hab) hba⟩

end Graph

end Autogen
