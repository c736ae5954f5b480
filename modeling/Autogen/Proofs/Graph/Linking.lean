import Autogen.Proofs.Graph.Merged

/-!
# Linking

Libraries are linked to targets one after another. A link is refused exactly when it would close a
cycle, so whatever links are asked for, those that were accepted form none, and walks along them
come to their end by themselves: the bound that they carry is never what stops them.

## Main definitions

* `Store.tryLink` — a link that is asked for.
* `Store.LinksInOrder` — what holds of links, and what asking for a further one does.

## Main statements

* `Store.Linked.linkLibrary_eq_error` — which links are refused.
* `Store.linksInOrder_of_calls` — the links after any links were asked for.
-/

namespace Autogen.Store

open Relation

variable {s s' : Store} {t u library : TargetId}

/-- Asks for a link from a target to a library. A link that is refused leaves the store as it is. -/
def tryLink (s : Store) (link : TargetId × TargetId) : Store :=
  (s.linkLibrary link.1 link.2).toOption.getD s

/-! ## Refused and accepted links -/

/-- A link is refused exactly when the library is the target itself or is compiled from it. -/
theorem Linked.linkLibrary_eq_error (h : s.Linked) :
    s.linkLibrary t library = .error ⟨(s.target library).name, (s.target t).name⟩ ↔
      library = t ∨ s.Reaches library t := by
  rw [← mem_libraries h]
  unfold Store.linkLibrary
  split_ifs <;> simp_all

/-- A link that closes no cycle is accepted, and then it is one of the links; the others stay. -/
theorem Linked.linkLibrary_eq_ok (h : s.Linked) (ht : t < s.targets.length)
    (hlibrary : library < s.targets.length) (hfree : ¬(library = t ∨ s.Reaches library t)) :
    ∃ linked, s.linkLibrary t library = .ok linked ∧
      ∀ a b, linked.Uses a b ↔ s.Uses a b ∨ a = t ∧ b = library := by
  have hlibraries : ¬(library = t ∨ t ∈ s.libraries library) := by rwa [mem_libraries h]
  unfold Store.linkLibrary
  rw [if_neg hlibraries]
  split
  · rename_i huse
    refine ⟨s, rfl, ?_⟩
    rintro a b
    constructor
    · exact .inl
    · rintro (hold | ⟨rfl, rfl⟩)
      · exact hold
      · exact huse
  · refine ⟨_, rfl, ?_⟩
    intro a b
    rw [uses_of_bare (bare_clearSources _ t)]
    exact uses_addLink ht hlibrary a b

/-- What asking for a link does: nothing, or the link is added and lists are forgotten. -/
theorem tryLink_cases (s : Store) (t library : TargetId) :
    s.tryLink (t, library) = s ∨
      library ≠ t ∧ t ∉ s.libraries library ∧ ¬ s.Uses t library ∧
        s.tryLink (t, library) = (s.addLink t library).clearSources t := by
  unfold tryLink
  cases hlink : s.linkLibrary t library with
  | error cycle => exact .inl rfl
  | ok linked =>
    obtain ⟨hne, hfree, ⟨-, rfl⟩ | ⟨hnew, rfl⟩⟩ := linkLibrary_cases hlink
    · exact .inl rfl
    · exact .inr ⟨hne, hfree, hnew, rfl⟩

theorem length_targets_tryLink (s : Store) (link : TargetId × TargetId) :
    (s.tryLink link).targets.length = s.targets.length := by
  rcases s.tryLink_cases link.1 link.2 with heq | ⟨-, -, -, heq⟩
  · rw [heq]
  · rw [heq]
    simp [clearSources, addLink]

theorem Linked.tryLink (h : s.Linked) (ht : t < s.targets.length)
    (hlibrary : library < s.targets.length) :
    (s.tryLink (t, library)).Linked := by
  rcases s.tryLink_cases t library with heq | ⟨hne, hfree, -, heq⟩
  · rwa [heq]
  · rw [heq]
    exact (h.addLink ht hlibrary hne (mt (mem_libraries h).mpr hfree)).forget _

/-- Links that are listed once at each of their ends. -/
structure ListedOnce (s : Store) : Prop where
  libraries : ∀ t, (s.target t).objectLibraries.Nodup
  consumers : ∀ t, (s.target t).consumers.Nodup

theorem listedOnce_of_unlinked (h : ∀ x ∈ s.targets, x.objectLibraries = [] ∧ x.consumers = []) :
    s.ListedOnce := by
  have hplain (t : TargetId) : (s.target t).objectLibraries = [] ∧ (s.target t).consumers = [] := by
    rcases target_mem_or_default s t with hmem | hdefault
    · exact h _ hmem
    · rw [hdefault]
      exact ⟨rfl, rfl⟩
  exact ⟨fun t => by simp [hplain t], fun t => by simp [hplain t]⟩

theorem nodup_snoc {α : Type} {items : List α} {a : α} (h : items.Nodup) (ha : a ∉ items) :
    (items ++ [a]).Nodup := by
  grind [List.nodup_append]

/-- A link that is new at one end is new at the other one. -/
theorem ListedOnce.tryLink (honce : s.ListedOnce) (h : s.Linked) (ht : t < s.targets.length)
    (hlibrary : library < s.targets.length) : (s.tryLink (t, library)).ListedOnce := by
  rcases s.tryLink_cases t library with heq | ⟨-, -, hnew, heq⟩
  · rwa [heq]
  · have hpart {α : Type} (part : Target → α) (hbare : ∀ x, part x.bare = part x) (u : TargetId) :
        part ((s.tryLink (t, library)).target u) = part ((s.addLink t library).target u) := by
      rw [heq]
      exact part_eq_of_bare part hbare (bare_clearSources _ t) u
    refine ⟨fun u => ?_, fun u => ?_⟩
    · rw [hpart Target.objectLibraries (fun _ => rfl), target_addLink ht hlibrary]
      simp only
      split_ifs with htu
      · subst htu
        exact nodup_snoc (honce.libraries t) hnew
      · exact honce.libraries u
    · rw [hpart Target.consumers (fun _ => rfl), target_addLink ht hlibrary]
      simp only
      split_ifs with hlu
      · subst hlu
        exact nodup_snoc (honce.consumers library) (mt (h.consumer_iff t library).mp hnew)
      · exact honce.consumers u

/-! ## Walks that end by themselves -/

theorem librariesWithin_stable {rank : TargetId → Nat} (hrank : ∀ t u, s.Uses t u → rank u < rank t)
    {depth depth' : Nat} (h : rank t ≤ depth) (h' : rank t ≤ depth') :
    s.librariesWithin depth t = s.librariesWithin depth' t := by
  induction depth generalizing depth' t with
  | zero =>
    have hnone := objectLibraries_eq_nil hrank (Nat.le_zero.mp h)
    cases depth' <;> simp [librariesWithin, hnone]
  | succ depth ih =>
    cases depth' with
    | zero =>
      have hnone := objectLibraries_eq_nil hrank (Nat.le_zero.mp h')
      simp [librariesWithin, hnone]
    | succ depth' =>
      rw [librariesWithin, librariesWithin]
      refine List.flatMap_congr fun library huse => ?_
      have := hrank t library huse
      rw [ih (by omega) (by omega : rank library ≤ depth')]

theorem dependentsWithin_stable (hlinked : s.Linked) {rank : TargetId → Nat}
    (hrank : ∀ t u, s.Uses u t → rank u < rank t) {depth depth' : Nat} (h : rank t ≤ depth)
    (h' : rank t ≤ depth') : s.dependentsWithin depth t = s.dependentsWithin depth' t := by
  have hnone {t : TargetId} (hzero : rank t ≤ 0) : (s.target t).consumers = [] := by
    rw [List.eq_nil_iff_forall_not_mem]
    intro u hu
    have := hrank t u ((hlinked.consumer_iff u t).mp hu)
    omega
  induction depth generalizing depth' t with
  | zero => cases depth' <;> simp [dependentsWithin, hnone h]
  | succ depth ih =>
    cases depth' with
    | zero => simp [dependentsWithin, hnone h']
    | succ depth' =>
      rw [dependentsWithin, dependentsWithin]
      congr 1
      refine List.flatMap_congr fun u hu => ?_
      have := hrank t u ((hlinked.consumer_iff u t).mp hu)
      exact ih (by omega) (by omega)

theorem mergeLibraries_congr {listOf listOf' : TargetId → Store → List SourceId × Store}
    (hbare : ∀ library r, (listOf library r).2.bare = r.bare) {libraries : List TargetId}
    (hlist : ∀ library ∈ libraries, ∀ r, r.bare = s.bare → listOf library r = listOf' library r)
    (merged : List SourceId) {r : Store} (hr : r.bare = s.bare) :
    mergeLibraries listOf libraries merged r = mergeLibraries listOf' libraries merged r := by
  induction libraries generalizing merged r with
  | nil => rfl
  | cons library rest ih =>
    have hnext := (hbare library r).trans hr
    rw [mergeLibraries, mergeLibraries, ← hlist library List.mem_cons_self r hr]
    exact ih (fun l hl => hlist l (List.mem_cons_of_mem _ hl)) _ hnext

/-- Merging lists is not cut short, whatever is remembered. -/
theorem commonSourcesWithin_stable {rank : TargetId → Nat}
    (hrank : ∀ t u, s.Uses t u → rank u < rank t) {depth depth' : Nat} (h : rank t < depth)
    (h' : rank t < depth') {r : Store} (hr : r.bare = s.bare) :
    commonSourcesWithin depth t r = commonSourcesWithin depth' t r := by
  induction depth generalizing depth' t r with
  | zero => omega
  | succ depth ih =>
    cases depth' with
    | zero => omega
    | succ depth' =>
      rw [commonSourcesWithin, commonSourcesWithin]
      have hmerge : mergeLibraries (commonSourcesWithin depth) (r.target t).objectLibraries
            (r.target t).sources r =
          mergeLibraries (commonSourcesWithin depth') (r.target t).objectLibraries
            (r.target t).sources r := by
        refine mergeLibraries_congr (fun library r => bare_commonSourcesWithin depth library r)
          (fun library hmem r' hr' => ?_) _ hr
        have huse : s.Uses t library := by rwa [← uses_of_bare hr]
        have := hrank t library huse
        exact ih (by omega) (by omega) hr'
      rw [hmerge]

/-! ## Any links -/

/-- What holds of the links of a store, and what asking for a further one does. -/
structure LinksInOrder (s : Store) : Prop where
  refused : ∀ t library,
    (s.linkLibrary t library = .error ⟨(s.target library).name, (s.target t).name⟩ ↔
      library = t ∨ s.Reaches library t)
  unchanged : ∀ t library cycle, s.linkLibrary t library = .error cycle → s.tryLink (t, library) = s
  accepted : ∀ t library, t < s.targets.length → library < s.targets.length →
    ¬(library = t ∨ s.Reaches library t) → ∃ linked, s.linkLibrary t library = .ok linked ∧
      ∀ a b, linked.Uses a b ↔ s.Uses a b ∨ a = t ∧ b = library
  acyclic : ∀ t, ¬ s.Reaches t t
  inverse : ∀ t library, t ∈ (s.target library).consumers ↔ library ∈ (s.target t).objectLibraries
  once : s.ListedOnce
  libraries : ∀ t depth, s.targets.length ≤ depth → s.librariesWithin depth t = s.libraries t
  dependents : ∀ t depth, s.targets.length ≤ depth → s.dependentsWithin depth t = s.dependents t
  commonSources : ∀ t depth, t < s.targets.length → s.targets.length ≤ depth →
    commonSourcesWithin depth t s = s.commonSources t

theorem Linked.linksInOrder (h : s.Linked) (honce : s.ListedOnce) : s.LinksInOrder where
  refused _ _ := h.linkLibrary_eq_error
  unchanged t library cycle hlink := by simp [Store.tryLink, hlink, Except.toOption]
  accepted _ _ ht hlibrary hfree := h.linkLibrary_eq_ok ht hlibrary hfree
  acyclic := h.acyclic
  inverse := h.consumer_iff
  once := honce
  libraries t depth hdepth := by
    obtain ⟨rank, hrank, hle⟩ := h.exists_rank
    exact librariesWithin_stable hrank ((hle t).trans hdepth) (hle t)
  dependents t depth hdepth := by
    obtain ⟨rank, hrank, hle⟩ := h.exists_corank
    exact dependentsWithin_stable h hrank ((hle t).trans hdepth) (hle t)
  commonSources t depth ht hdepth := by
    obtain ⟨rank, hrank, hlt⟩ := h.exists_rank_lt
    exact commonSourcesWithin_stable hrank ((hlt t ht).trans_le hdepth) (hlt t ht) rfl

/-- Asking for links keeps links in order. -/
theorem Linked.linksInOrder_calls {calls : List (TargetId × TargetId)} (h : s.Linked)
    (honce : s.ListedOnce)
    (hcalls : ∀ call ∈ calls, call.1 < s.targets.length ∧ call.2 < s.targets.length) :
    (calls.foldl Store.tryLink s).LinksInOrder := by
  induction calls generalizing s with
  | nil => exact h.linksInOrder honce
  | cons call rest ih =>
    obtain ⟨ht, hlibrary⟩ := hcalls call List.mem_cons_self
    refine ih (h.tryLink ht hlibrary) (honce.tryLink h ht hlibrary) ?_
    intro other hother
    rw [length_targets_tryLink]
    exact hcalls other (List.mem_cons_of_mem _ hother)

/-- Whatever links are asked for in a store that has none, its links are in order. -/
theorem linksInOrder_of_calls (hlinks : ∀ x ∈ s.targets, x.objectLibraries = [] ∧ x.consumers = [])
    (hsources : ∀ x ∈ s.targets, ∀ id ∈ x.sources, id < s.sources.length)
    {calls : List (TargetId × TargetId)}
    (hcalls : ∀ call ∈ calls, call.1 < s.targets.length ∧ call.2 < s.targets.length) :
    (calls.foldl tryLink s).LinksInOrder :=
  (linked_of_unlinked hlinks hsources).linksInOrder_calls (listedOnce_of_unlinked hlinks) hcalls

end Autogen.Store
