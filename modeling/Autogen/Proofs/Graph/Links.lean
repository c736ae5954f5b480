import Autogen.Graph.Store
import Mathlib.Data.Finset.Card
import Mathlib.Data.Finset.Range
import Mathlib.Logic.Relation

/-!
# Links between targets

The object libraries of the targets as a relation. The store walks along the links in both
directions with the number of targets as a bound; where the links form no cycle and both of their
ends know of them, the walks reach exactly what the relation reaches.

## Main definitions

* `Store.Uses`, `Store.Reaches` — the link from a target to a library, and chains of links.
* `Store.Linked` — links that form no cycle, lead to targets, and are known at both ends.

## Main statements

* `mem_libraries`, `mem_dependents` — what the walks reach.
* `target_clearSources` — which targets forget their merged source lists.
* `Linked.linkLibrary` — a link that is accepted keeps the links in order.
-/

namespace Autogen

open Relation

/-- A relation on the numbers below a bound that has no cycle runs down a rank within the bound: the
number of elements that can be reached. As none is reached from itself, their ranks are below it. -/
theorem exists_rank {r : Nat → Nat → Prop} {n : Nat} (hlt : ∀ a b, r a b → b < n)
    (hacyclic : ∀ a, ¬ TransGen r a a) :
    ∃ rank : Nat → Nat, (∀ a b, r a b → rank b < rank a) ∧ (∀ a, rank a ≤ n) ∧
      ∀ a < n, rank a < n := by
  classical
  refine ⟨fun a => ((Finset.range n).filter (TransGen r a)).card, ?_, ?_, ?_⟩
  · intro a b hab
    apply Finset.card_lt_card
    refine (Finset.ssubset_iff_of_subset ?_).mpr ⟨b, ?_, ?_⟩
    · intro c hc
      rw [Finset.mem_filter] at hc ⊢
      exact ⟨hc.1, .head hab hc.2⟩
    · exact Finset.mem_filter.mpr ⟨Finset.mem_range.mpr (hlt a b hab), .single hab⟩
    · intro hb
      exact hacyclic b (Finset.mem_filter.mp hb).2
  · intro a
    exact (Finset.card_filter_le _ _).trans_eq (Finset.card_range n)
  · intro a ha
    have hmissing : a ∉ (Finset.range n).filter (TransGen r a) := by simp [hacyclic a]
    have hsub := (Finset.ssubset_iff_of_subset (Finset.filter_subset (TransGen r a) _)).mpr
      ⟨a, Finset.mem_range.mpr ha, hmissing⟩
    exact (Finset.card_lt_card hsub).trans_eq (Finset.card_range n)

/-- A target without its merged source list. -/
def Target.bare (t : Target) : Target :=
  { t with sourceCache := none }

namespace Store

/-- The link from a target to one of its object libraries. -/
def Uses (s : Store) (t library : TargetId) : Prop :=
  library ∈ (s.target t).objectLibraries

/-- Chains of links. -/
def Reaches (s : Store) : TargetId → TargetId → Prop :=
  TransGen s.Uses

/-- Links that form no cycle, lead to targets of the store, and are known at both ends. The sources
of targets are entries of the store. -/
structure Linked (s : Store) : Prop where
  acyclic : ∀ t, ¬ s.Reaches t t
  library_lt : ∀ t library, s.Uses t library → library < s.targets.length
  consumer_iff : ∀ t library, t ∈ (s.target library).consumers ↔ s.Uses t library
  source_lt : ∀ t, ∀ id ∈ (s.target t).sources, id < s.sources.length

/-- What is no target of the store has nothing. -/
theorem target_of_le {s : Store} {t : TargetId} (h : s.targets.length ≤ t) :
    s.target t = default := by
  simp [target, List.getD_eq_getElem?_getD, h]

theorem target_mem_or_default (s : Store) (t : TargetId) :
    s.target t ∈ s.targets ∨ s.target t = default := by
  by_cases h : t < s.targets.length
  · refine .inl ?_
    rw [target, List.getD_eq_getElem?_getD, List.getElem?_eq_getElem h]
    exact List.getElem_mem h
  · exact .inr (target_of_le (Nat.le_of_not_lt h))

theorem lt_of_uses {s : Store} {t library : TargetId} (h : s.Uses t library) :
    t < s.targets.length := by
  by_contra hle
  rw [Uses, target_of_le (Nat.le_of_not_lt hle)] at h
  exact absurd h List.not_mem_nil

theorem Reaches.mono {s s' : Store} (h : ∀ t u, s.Uses t u → s'.Uses t u) {t u : TargetId}
    (hreach : s.Reaches t u) : s'.Reaches t u :=
  TransGen.mono h t u hreach

/-- The links of a store run down a rank within the number of its targets. -/
theorem Linked.exists_rank {s : Store} (h : s.Linked) :
    ∃ rank : TargetId → Nat,
      (∀ t u, s.Uses t u → rank u < rank t) ∧ ∀ t, rank t ≤ s.targets.length := by
  obtain ⟨rank, hrank, hle, -⟩ := Autogen.exists_rank h.library_lt h.acyclic
  exact ⟨rank, hrank, hle⟩

/-- The rank of a target that the store has is below the number of its targets. -/
theorem Linked.exists_rank_lt {s : Store} (h : s.Linked) :
    ∃ rank : TargetId → Nat,
      (∀ t u, s.Uses t u → rank u < rank t) ∧
      ∀ t < s.targets.length, rank t < s.targets.length := by
  obtain ⟨rank, hrank, -, hlt⟩ := Autogen.exists_rank h.library_lt h.acyclic
  exact ⟨rank, hrank, hlt⟩

/-- Against their direction the links run down a rank, too. -/
theorem Linked.exists_corank {s : Store} (h : s.Linked) :
    ∃ rank : TargetId → Nat,
      (∀ t u, s.Uses u t → rank u < rank t) ∧ ∀ t, rank t ≤ s.targets.length := by
  obtain ⟨rank, hrank, hle, -⟩ :=
    Autogen.exists_rank (r := Function.swap s.Uses) (fun _ _ huse => lt_of_uses huse)
      fun t ht => h.acyclic t (transGen_swap.mp ht)
  exact ⟨rank, hrank, hle⟩

/-! ## Walks along the links -/

theorem mem_librariesWithin {s : Store} {rank : TargetId → Nat}
    (hrank : ∀ t u, s.Uses t u → rank u < rank t) {depth : Nat} {t u : TargetId}
    (hdepth : rank t ≤ depth) : u ∈ s.librariesWithin depth t ↔ s.Reaches t u := by
  induction depth generalizing t with
  | zero =>
    refine ⟨fun h => absurd h List.not_mem_nil, fun h => ?_⟩
    obtain ⟨v, huse, -⟩ := TransGen.head'_iff.mp h
    have := hrank t v huse
    omega
  | succ depth ih =>
    simp only [librariesWithin, List.mem_flatMap, List.mem_cons]
    constructor
    · rintro ⟨v, huse, rfl | hu⟩
      · exact .single huse
      · have := hrank t v huse
        exact .head huse ((ih (by omega)).mp hu)
    · intro h
      obtain ⟨v, huse, hchain⟩ := TransGen.head'_iff.mp h
      have := hrank t v huse
      refine ⟨v, huse, ?_⟩
      rcases reflTransGen_iff_eq_or_transGen.mp hchain with rfl | hv
      · exact .inl rfl
      · exact .inr ((ih (by omega)).mpr hv)

/-- The object libraries of a target are those that links lead to. -/
theorem mem_libraries {s : Store} (h : s.Linked) {t u : TargetId} :
    u ∈ s.libraries t ↔ s.Reaches t u := by
  obtain ⟨rank, hrank, hle⟩ := h.exists_rank
  exact mem_librariesWithin hrank (hle t)

theorem mem_dependentsWithin {s : Store} (h : s.Linked) {rank : TargetId → Nat}
    (hrank : ∀ t u, s.Uses u t → rank u < rank t) {depth : Nat} {t u : TargetId}
    (hdepth : rank t ≤ depth) : u ∈ s.dependentsWithin depth t ↔ u = t ∨ s.Reaches u t := by
  induction depth generalizing t with
  | zero =>
    refine ⟨fun hu => .inl (List.mem_singleton.mp hu), ?_⟩
    rintro (rfl | hu)
    · exact List.mem_singleton_self _
    · obtain ⟨v, -, huse⟩ := TransGen.tail'_iff.mp hu
      have := hrank t v huse
      omega
  | succ depth ih =>
    simp only [dependentsWithin, List.mem_cons, List.mem_flatMap, h.consumer_iff]
    refine or_congr_right ⟨?_, fun hu => ?_⟩
    · rintro ⟨v, huse, hu⟩
      have := hrank t v huse
      rcases (ih (by omega)).mp hu with rfl | hv
      · exact .single huse
      · exact .tail hv huse
    · obtain ⟨v, hchain, huse⟩ := TransGen.tail'_iff.mp hu
      have := hrank t v huse
      exact ⟨v, huse,
        (ih (by omega)).mpr (reflTransGen_iff_eq_or_transGen.mp hchain |>.imp_left Eq.symm)⟩

/-- The dependents of a target are the target itself and those from which links lead to it. -/
theorem mem_dependents {s : Store} (h : s.Linked) {t u : TargetId} :
    u ∈ s.dependents t ↔ u = t ∨ s.Reaches u t := by
  obtain ⟨rank, hrank, hle⟩ := h.exists_corank
  exact mem_dependentsWithin h hrank (hle t)

/-- The links of a store are in order if those of a store with the same links are. -/
theorem Linked.congr {s s' : Store} (h : s.Linked) (hlen : s'.targets.length = s.targets.length)
    (hlib : ∀ t, (s'.target t).objectLibraries = (s.target t).objectLibraries)
    (hcons : ∀ t, (s'.target t).consumers = (s.target t).consumers)
    (hsrc : ∀ t, ∀ id ∈ (s'.target t).sources, id < s'.sources.length) : s'.Linked := by
  have huses : s'.Uses = s.Uses := by
    funext t u
    rw [Uses, Uses, hlib]
  refine ⟨?_, ?_, ?_, hsrc⟩
  · intro t
    rw [Reaches, huses]
    exact h.acyclic t
  · intro t u
    rw [huses, hlen]
    exact h.library_lt t u
  · intro t u
    rw [huses, hcons]
    exact h.consumer_iff t u

/-- The links of a store without any are in order if the sources of its targets are entries. -/
theorem linked_of_unlinked {s : Store}
    (hlinks : ∀ x ∈ s.targets, x.objectLibraries = [] ∧ x.consumers = [])
    (hsources : ∀ x ∈ s.targets, ∀ id ∈ x.sources, id < s.sources.length) : s.Linked := by
  have hplain (t : TargetId) : (s.target t).objectLibraries = [] ∧ (s.target t).consumers = [] ∧
      ∀ id ∈ (s.target t).sources, id < s.sources.length := by
    rcases target_mem_or_default s t with hmem | hdefault
    · exact ⟨(hlinks _ hmem).1, (hlinks _ hmem).2, hsources _ hmem⟩
    · rw [hdefault]
      exact ⟨rfl, rfl, fun id hid => absurd hid List.not_mem_nil⟩
  have huses (t u : TargetId) : ¬ s.Uses t u := by
    rw [Uses, (hplain t).1]
    exact List.not_mem_nil
  refine ⟨?_, fun t u huse => absurd huse (huses t u), ?_, fun t => (hplain t).2.2⟩
  · intro t hreach
    obtain ⟨u, huse, -⟩ := TransGen.head'_iff.mp hreach
    exact huses t u huse
  · intro t u
    rw [(hplain u).2.1]
    exact iff_of_false List.not_mem_nil (huses t u)

/-! ## Forgetting -/

@[simp] theorem length_targets_modifyTarget (s : Store) (t : TargetId) (f : Target → Target) :
    (s.modifyTarget t f).targets.length = s.targets.length := by
  simp [modifyTarget]

@[simp] theorem sources_modifyTarget (s : Store) (t : TargetId) (f : Target → Target) :
    (s.modifyTarget t f).sources = s.sources := rfl

/-- A part of a target that a change leaves alone. -/
theorem part_modifyTarget {α : Type} (part : Target → α) {f : Target → Target}
    (hf : ∀ x, part (f x) = part x) (s : Store) (t u : TargetId) :
    part ((s.modifyTarget t f).target u) = part (s.target u) := by
  rw [target_modifyTarget]
  split
  · exact hf _
  · rfl

@[simp] theorem length_targets_forget (s : Store) (ts : List TargetId) :
    (s.forget ts).targets.length = s.targets.length := by
  unfold forget
  induction ts generalizing s with
  | nil => rfl
  | cons t ts ih => rw [List.foldl_cons, ih, length_targets_modifyTarget]

@[simp] theorem sources_forget (s : Store) (ts : List TargetId) :
    (s.forget ts).sources = s.sources := by
  unfold forget
  induction ts generalizing s with
  | nil => rfl
  | cons t ts ih => rw [List.foldl_cons, ih, sources_modifyTarget]

/-- Forgetting takes the merged source lists from the given targets and nothing else. -/
theorem target_forget (s : Store) (ts : List TargetId) (u : TargetId) :
    (s.forget ts).target u = if u ∈ ts then (s.target u).bare else s.target u := by
  unfold forget
  induction ts generalizing s with
  | nil => simp
  | cons t ts ih =>
    rw [List.foldl_cons, ih, target_modifyTarget]
    by_cases hlt : u < s.targets.length
    · by_cases htu : t = u
      · subst htu
        simp [hlt, Target.bare]
      · simp [htu, Ne.symm htu]
    · have hnone : s.target u = default := target_of_le (Nat.le_of_not_lt hlt)
      have hbare : (default : Target).bare = default := rfl
      simp [hlt, hnone, hbare]

/-- Clearing a target makes it and everything that is compiled from it forget. -/
theorem target_clearSources {s : Store} (h : s.Linked) (t u : TargetId)
    [Decidable (u = t ∨ s.Reaches u t)] :
    (s.clearSources t).target u =
      if u = t ∨ s.Reaches u t then (s.target u).bare else s.target u := by
  simp only [clearSources, target_forget, mem_dependents h]

theorem Linked.forget {s : Store} (h : s.Linked) (ts : List TargetId) : (s.forget ts).Linked := by
  have hpart {α : Type} (part : Target → α) (hbare : ∀ x, part x.bare = part x) (u : TargetId) :
      part ((s.forget ts).target u) = part (s.target u) := by
    rw [target_forget]
    split
    · exact hbare _
    · rfl
  refine h.congr (length_targets_forget s ts) (hpart _ fun _ => rfl) (hpart _ fun _ => rfl) ?_
  intro t id hid
  rw [sources_forget]
  rw [hpart Target.sources fun _ => rfl] at hid
  exact h.source_lt t id hid

/-! ## A new link -/

/-- The store with a link from `t` to `library`, known at both ends. -/
def addLink (s : Store) (t library : TargetId) : Store :=
  (s.modifyTarget t fun x =>
      { x with objectLibraries := x.objectLibraries ++ [library] }).modifyTarget library fun x =>
    { x with consumers := x.consumers ++ [t] }

/-- What a link that is not refused does: nothing if it is there already. -/
theorem linkLibrary_cases {s s' : Store} {t library : TargetId}
    (h : s.linkLibrary t library = .ok s') :
    library ≠ t ∧ t ∉ s.libraries library ∧
      (s.Uses t library ∧ s' = s ∨
        ¬ s.Uses t library ∧ s' = (s.addLink t library).clearSources t) := by
  unfold linkLibrary at h
  split at h
  · cases h
  · rename_i hfree
    obtain ⟨hne, hlibraries⟩ := not_or.mp hfree
    refine ⟨hne, hlibraries, ?_⟩
    split at h
    · rename_i huse
      exact .inl ⟨huse, (Except.ok.inj h).symm⟩
    · rename_i huse
      exact .inr ⟨huse, (Except.ok.inj h).symm⟩

/-- A new link changes a list at each of its ends. -/
theorem target_addLink {s : Store} {t library : TargetId} (ht : t < s.targets.length)
    (hlibrary : library < s.targets.length) (u : TargetId) :
    (s.addLink t library).target u = { s.target u with
      objectLibraries :=
        if t = u then (s.target u).objectLibraries ++ [library] else (s.target u).objectLibraries
      consumers :=
        if library = u then (s.target u).consumers ++ [t] else (s.target u).consumers } := by
  rw [addLink, target_modifyTarget, target_modifyTarget]
  by_cases htu : t = u
  · subst htu
    by_cases hlu : library = t
    · simp [hlu, ht]
    · simp [hlu, ht]
  · by_cases hlu : library = u
    · subst hlu
      simp [htu, hlibrary]
    · simp [htu, hlu]

theorem uses_addLink {s : Store} {t library : TargetId} (ht : t < s.targets.length)
    (hlibrary : library < s.targets.length) (a b : TargetId) :
    (s.addLink t library).Uses a b ↔ s.Uses a b ∨ a = t ∧ b = library := by
  rw [Uses, target_addLink ht hlibrary]
  by_cases hta : t = a
  · subst hta
    simp [Uses]
  · simp [Uses, hta, Ne.symm hta]

theorem mem_consumers_addLink {s : Store} {t library : TargetId} (ht : t < s.targets.length)
    (hlibrary : library < s.targets.length) (a b : TargetId) :
    a ∈ ((s.addLink t library).target b).consumers ↔
      a ∈ (s.target b).consumers ∨ a = t ∧ b = library := by
  rw [target_addLink ht hlibrary]
  by_cases hb : library = b
  · subst hb
    simp
  · simp [hb, Ne.symm hb]

/-- A chain of links in the store with a new link is an old one, or it goes through the new link. -/
theorem reaches_addLink {s : Store} {t library : TargetId} (ht : t < s.targets.length)
    (hlibrary : library < s.targets.length) {a b : TargetId}
    (h : (s.addLink t library).Reaches a b) :
    s.Reaches a b ∨ ReflTransGen s.Uses a t ∧ ReflTransGen s.Uses library b := by
  induction h with
  | single huse =>
    rcases (uses_addLink ht hlibrary _ _).mp huse with hold | ⟨rfl, rfl⟩
    · exact .inl (.single hold)
    · exact .inr ⟨.refl, .refl⟩
  | tail _ huse ih =>
    rcases (uses_addLink ht hlibrary _ _).mp huse with hold | ⟨rfl, rfl⟩
    · exact ih.imp (·.tail hold) fun ⟨hto, hfrom⟩ => ⟨hto, hfrom.tail hold⟩
    · exact .inr ⟨ih.elim TransGen.to_reflTransGen And.left, .refl⟩

/-- A link that closes no cycle keeps the links in order. -/
theorem Linked.addLink {s : Store} (h : s.Linked) {t library : TargetId}
    (ht : t < s.targets.length) (hlibrary : library < s.targets.length) (hne : library ≠ t)
    (hfree : ¬ s.Reaches library t) : (s.addLink t library).Linked := by
  have hlen : (s.addLink t library).targets.length = s.targets.length := by
    simp [Store.addLink]
  refine ⟨?_, ?_, ?_, ?_⟩
  · intro u hu
    rcases reaches_addLink ht hlibrary hu with hold | ⟨hto, hfrom⟩
    · exact h.acyclic u hold
    · rcases reflTransGen_iff_eq_or_transGen.mp (hfrom.trans hto) with heq | hchain
      · exact hne heq.symm
      · exact hfree hchain
  · intro a b huse
    rw [hlen]
    rcases (uses_addLink ht hlibrary a b).mp huse with hold | ⟨-, rfl⟩
    · exact h.library_lt a b hold
    · exact hlibrary
  · intro a b
    rw [mem_consumers_addLink ht hlibrary, uses_addLink ht hlibrary, h.consumer_iff]
  · intro u id hid
    rw [target_addLink ht hlibrary] at hid
    exact h.source_lt u id hid

/-- A link that is accepted keeps the links in order. -/
theorem Linked.linkLibrary {s s' : Store} (h : s.Linked) {t library : TargetId}
    (ht : t < s.targets.length) (hlibrary : library < s.targets.length)
    (hlink : s.linkLibrary t library = .ok s') : s'.Linked := by
  obtain ⟨hne, hfree, ⟨-, rfl⟩ | ⟨-, rfl⟩⟩ := linkLibrary_cases hlink
  · exact h
  · exact (h.addLink ht hlibrary hne (mt (mem_libraries h).mpr hfree)).forget _

/-- A link leaves the source entries alone, and no target comes or goes. -/
theorem sizes_linkLibrary {s s' : Store} {t library : TargetId}
    (h : s.linkLibrary t library = .ok s') :
    s'.sources = s.sources ∧ s'.targets.length = s.targets.length := by
  obtain ⟨-, -, ⟨-, rfl⟩ | ⟨-, rfl⟩⟩ := linkLibrary_cases h
  · exact ⟨rfl, rfl⟩
  · exact ⟨sources_forget _ _, by simp [clearSources, Store.addLink]⟩

/-! ## A new target -/

theorem target_newTarget (s : Store) (x : Target) (u : TargetId) :
    (s.newTarget x).2.target u = if u = s.targets.length then x else s.target u := by
  rw [target, target, newTarget, List.getD_eq_getElem?_getD, List.getD_eq_getElem?_getD]
  rcases Nat.lt_trichotomy u s.targets.length with hlt | rfl | hlt
  · rw [List.getElem?_append_left hlt, if_neg hlt.ne]
  · simp
  · rw [List.getElem?_append_right hlt.le, List.getElem?_eq_none hlt.le, if_neg hlt.ne',
      List.getElem?_eq_none (by simp; omega)]

/-- A target without links keeps the links in order. -/
theorem Linked.newTarget {s : Store} (h : s.Linked) {x : Target}
    (hlibraries : x.objectLibraries = []) (hconsumers : x.consumers = [])
    (hsources : ∀ id ∈ x.sources, id < s.sources.length) :
    (s.newTarget x).2.Linked := by
  have hnone : s.target s.targets.length = default := target_of_le le_rfl
  -- A number that stands for no target reads as one without links, as the new target is.
  have hlib (u : TargetId) : ((s.newTarget x).2.target u).objectLibraries =
      (s.target u).objectLibraries := by
    rw [target_newTarget]
    split
    · rename_i heq
      rw [heq, hnone, hlibraries]
      rfl
    · rfl
  have huses : (s.newTarget x).2.Uses = s.Uses := by
    funext t u
    rw [Uses, Uses, hlib]
  refine ⟨?_, ?_, ?_, ?_⟩
  · intro t
    rw [Reaches, huses]
    exact h.acyclic t
  · intro t u huse
    rw [huses] at huse
    exact (h.library_lt t u huse).trans_le (by simp [Store.newTarget])
  · intro t u
    rw [huses, ← h.consumer_iff, target_newTarget]
    split
    · rename_i heq
      rw [heq, hnone, hconsumers]
      rfl
    · rfl
  · intro t id hid
    rw [target_newTarget] at hid
    split at hid
    · exact hsources id hid
    · exact h.source_lt t id hid

end Store

end Autogen
