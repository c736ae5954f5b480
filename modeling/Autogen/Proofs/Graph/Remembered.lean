import Autogen.Proofs.Graph.Calls

/-!
# What is remembered below a target

A merged list is made from those of the libraries, which are remembered with it, and a change makes
a target forget together with everything that is compiled from it. So the libraries of a target that
remembers its list remember theirs, whatever was called before. Where this is so, merging and
forgetting the list of a target leaves nothing for the next time: it changes what is remembered only
once.

## Main definitions

* `Store.RemembersBelow` — the libraries of a target that remembers its list remember theirs.
* `Store.Recalls` — a computation that forgets nothing on its way.

## Main statements

* `Store.clearSources_again` — merging and forgetting the list of a target once more changes
  nothing.
* `Graph.Coherent.remembersBelow_calls` — calls keep what is remembered below what is remembered.
-/

namespace Autogen

namespace Store

variable {s s' r : Store} {t u : TargetId}

/-- The libraries of a target that remembers its merged list remember theirs. -/
def RemembersBelow (s : Store) : Prop :=
  ∀ t library, s.isCached t = true → s.Uses t library → s.isCached library = true

/-- Stores are the same if they are the same up to what they remember, and they remember the
same. -/
theorem eq_of_bare_of_cache (h : s'.bare = s.bare)
    (hcache : ∀ t, (s'.target t).sourceCache = (s.target t).sourceCache) : s' = s := by
  obtain ⟨hsources, hlen, htarget⟩ := bare_eq_iff.mp h
  have hsame (t : TargetId) : s'.target t = s.target t := by
    have hbare := htarget t
    have hremembered := hcache t
    generalize s'.target t = x at *
    generalize s.target t = y at *
    cases x
    cases y
    simp_all [Target.bare]
  have htargets : s'.targets = s.targets := by
    apply List.ext_getElem hlen
    intro t ht ht'
    simpa [target, List.getD_eq_getElem?_getD, ht, ht'] using hsame t
  cases s
  cases s'
  simp_all

theorem isCached_eq_false (h : (s.target t).sourceCache = none) : s.isCached t = false := by
  simp [isCached, h]

/-- What is remembered stays where neither the lists nor the links change. -/
theorem RemembersBelow.congr (h : s.RemembersBelow)
    (hcache : ∀ u, (s'.target u).sourceCache = (s.target u).sourceCache)
    (hlibraries : ∀ u, (s'.target u).objectLibraries = (s.target u).objectLibraries) :
    s'.RemembersBelow := by
  intro t library hcached huse
  have hcached' (u : TargetId) : s'.isCached u = s.isCached u := by simp [isCached, hcache]
  rw [Uses, hlibraries] at huse
  rw [hcached'] at hcached ⊢
  exact h t library hcached huse

theorem remembersBelow_of_none (h : ∀ t, (s.target t).sourceCache = none) : s.RemembersBelow := by
  intro t library hcached
  rw [isCached_eq_false (h t)] at hcached
  cases hcached

/-! ## Forgetting -/

/-- A target remembers its list after another one was cleared if it is not compiled from that
one. -/
theorem isCached_clearSources (h : s.Linked) : (s.clearSources t).isCached u = true ↔
    s.isCached u = true ∧ ¬(u = t ∨ s.Reaches u t) := by
  classical
  rw [isCached, target_clearSources h]
  split
  · simp_all [Target.bare]
  · simp_all [isCached]

/-- After a change at one target it is enough that the target and what is compiled from it
forget. -/
theorem RemembersBelow.clearSources (hs : s.RemembersBelow) (hr : r.Linked)
    (hcache : ∀ u, (r.target u).sourceCache = (s.target u).sourceCache)
    (huses : ∀ u library, u ≠ t → r.Uses u library → s.Uses u library) :
    (r.clearSources t).RemembersBelow := by
  intro u library hcached huse
  rw [uses_of_bare (bare_clearSources r t)] at huse
  rw [isCached_clearSources hr, not_or] at hcached ⊢
  obtain ⟨hcached, hne, hfree⟩ := hcached
  have hcached' (u : TargetId) : r.isCached u = s.isCached u := by simp [isCached, hcache]
  refine ⟨?_, ?_, ?_⟩
  · rw [hcached'] at hcached ⊢
    exact hs u library hcached (huses u library hne huse)
  · rintro rfl
    exact hfree (.single huse)
  · intro hreach
    exact hfree (.head huse hreach)

theorem RemembersBelow.cleared (hs : s.RemembersBelow) (h : s.Linked) (t : TargetId) :
    (s.clearSources t).RemembersBelow :=
  hs.clearSources h (fun _ => rfl) fun _ _ _ huse => huse

/-! ## Merging -/

/-- What a computation of merged lists makes of a store: nothing is forgotten, and what is
remembered is remembered below. -/
structure Recalls (s s' : Store) : Prop where
  bare : s'.bare = s.bare
  kept : ∀ u, s.isCached u = true → s'.isCached u = true
  below : s'.RemembersBelow

theorem Recalls.refl (h : s.RemembersBelow) : s.Recalls s :=
  ⟨rfl, fun _ => id, h⟩

theorem Recalls.trans (h : s.Recalls s') (h' : s'.Recalls r) : s.Recalls r :=
  ⟨h'.bare.trans h.bare, fun u hu => h'.kept u (h.kept u hu), h'.below⟩

theorem mergeLibraries_recalls {listOf : TargetId → Store → List SourceId × Store}
    {libraries : List TargetId}
    (hlist : ∀ library ∈ libraries, ∀ r, s.Recalls r →
      r.Recalls (listOf library r).2 ∧ (listOf library r).2.isCached library = true)
    (merged : List SourceId) (hr : s.Recalls r) :
    r.Recalls (mergeLibraries listOf libraries merged r).2 ∧
      ∀ library ∈ libraries,
        (mergeLibraries listOf libraries merged r).2.isCached library = true := by
  induction libraries generalizing merged r with
  | nil => exact ⟨.refl hr.below, by simp⟩
  | cons library rest ih =>
    obtain ⟨hfirst, hcached⟩ := hlist library List.mem_cons_self r hr
    rw [mergeLibraries]
    generalize listOf library r = out at hfirst hcached ⊢
    obtain ⟨ids, r'⟩ := out
    obtain ⟨hrest, hothers⟩ := ih (fun l hl => hlist l (List.mem_cons_of_mem _ hl))
      (r'.mergeSources merged ids) (hr.trans hfirst)
    refine ⟨hfirst.trans hrest, ?_⟩
    intro l hl
    rcases List.mem_cons.mp hl with rfl | hl
    · exact hrest.kept l hcached
    · exact hothers l hl

/-- A target that remembers a list under which everything is remembered. -/
theorem Recalls.remember {ids : List SourceId} (hs : s.RemembersBelow)
    (hlibraries : ∀ library, s.Uses t library → s.isCached library = true) :
    s.Recalls (s.modifyTarget t fun x => { x with sourceCache := some ids }) := by
  have hbare : (s.modifyTarget t fun x => { x with sourceCache := some ids }).bare = s.bare :=
    bare_modifyTarget (fun _ => rfl : ∀ x : Target, { x with sourceCache := some ids }.bare =
      x.bare) s t
  have hkept (u : TargetId) (hu : s.isCached u = true) :
      (s.modifyTarget t fun x => { x with sourceCache := some ids }).isCached u = true := by
    rw [isCached, target_modifyTarget]
    split
    · rfl
    · exact hu
  refine ⟨hbare, hkept, ?_⟩
  intro u library hu huse
  rw [uses_of_bare hbare] at huse
  rw [isCached, target_modifyTarget] at hu
  split at hu
  · rename_i htu
    exact hkept library (hlibraries library (htu.1 ▸ huse))
  · exact hkept library (hs u library hu huse)

/-- A computation of the merged list of a target remembers the lists of everything it comes by. The
depth is never used up before a list can be remembered: it is more than the rank of the target. -/
theorem commonSourcesWithin_recalls {rank : TargetId → Nat}
    (hrank : ∀ t u, s.Uses t u → rank u < rank t) (hlt : ∀ t u, s.Uses t u → u < s.targets.length)
    {depth : Nat} (hdepth : rank t < depth) (ht : t < s.targets.length) (hr : s.Recalls r) :
    r.Recalls (commonSourcesWithin depth t r).2 ∧
      (commonSourcesWithin depth t r).2.isCached t = true := by
  induction depth generalizing t r with
  | zero => omega
  | succ depth ih =>
    rw [commonSourcesWithin]
    split
    · rename_i ids hids
      exact ⟨.refl hr.below, by simp [isCached, hids]⟩
    · have hlist : ∀ library ∈ (r.target t).objectLibraries, ∀ r', s.Recalls r' →
          r'.Recalls (commonSourcesWithin depth library r').2 ∧
            (commonSourcesWithin depth library r').2.isCached library = true := by
        intro library hmem r' hr'
        have huse : s.Uses t library := by rwa [← uses_of_bare hr.bare]
        have := hrank t library huse
        exact ih (by omega) (hlt t library huse) hr'
      obtain ⟨hmerge, hcached⟩ := mergeLibraries_recalls hlist (r.target t).sources hr
      generalize mergeLibraries (commonSourcesWithin depth) (r.target t).objectLibraries
        (r.target t).sources r = out at hmerge hcached ⊢
      obtain ⟨ids, r'⟩ := out
      have hlen : r'.targets.length = s.targets.length :=
        (bare_eq_iff.mp (hmerge.bare.trans hr.bare)).2.1
      refine ⟨hmerge.trans (.remember hmerge.below ?_), ?_⟩
      · intro library huse
        rw [uses_of_bare hmerge.bare] at huse
        exact hcached library huse
      · have ht' : t < r'.targets.length := ht.trans_eq hlen.symm
        simp [isCached, target_modifyTarget, ht']

/-- Nothing is remembered about what is no target of the store. -/
theorem commonSources_of_le (h : s.targets.length ≤ t) : (s.commonSources t).2 = s := by
  have hwithin (depth : Nat) : (commonSourcesWithin depth t s).2 = s := by
    have hnone : s.target t = default := target_of_le h
    have hcache : (default : Target).sourceCache = none := rfl
    have hlibraries : (default : Target).objectLibraries = [] := rfl
    cases depth with
    | zero => rfl
    | succ depth =>
      simp [commonSourcesWithin, hnone, hcache, hlibraries, mergeLibraries, modifyTarget,
        List.modify_eq_self h]
  exact hwithin s.targets.length

theorem commonSources_recalls (h : s.Linked) (hs : s.RemembersBelow) (t : TargetId) :
    s.Recalls (s.commonSources t).2 ∧
      (t < s.targets.length → (s.commonSources t).2.isCached t = true) := by
  by_cases ht : t < s.targets.length
  · obtain ⟨rank, hrank, hlt⟩ := h.exists_rank_lt
    obtain ⟨hrecalls, hcached⟩ :=
      commonSourcesWithin_recalls hrank h.library_lt (hlt t ht) ht (.refl hs)
    exact ⟨hrecalls, fun _ => hcached⟩
  · rw [commonSources_of_le (Nat.le_of_not_lt ht)]
    exact ⟨.refl hs, fun h => absurd h ht⟩

/-! ## Merging again -/

theorem commonSourcesWithin_of_cached (depth : Nat) (h : s.isCached t = true) :
    (commonSourcesWithin depth t s).2 = s := by
  obtain ⟨ids, hids⟩ := Option.isSome_iff_exists.mp h
  cases depth with
  | zero => rfl
  | succ depth => rw [commonSourcesWithin, hids]

theorem mergeLibraries_of_cached {depth : Nat} {libraries : List TargetId}
    (h : ∀ library ∈ libraries, s.isCached library = true) (merged : List SourceId) :
    (mergeLibraries (commonSourcesWithin depth) libraries merged s).2 = s := by
  induction libraries generalizing merged with
  | nil => rfl
  | cons library rest ih =>
    have hfirst := commonSourcesWithin_of_cached depth (h library List.mem_cons_self)
    rw [mergeLibraries]
    generalize commonSourcesWithin depth library s = out at hfirst ⊢
    obtain ⟨ids, s'⟩ := out
    subst hfirst
    exact ih (fun l hl => h l (List.mem_cons_of_mem _ hl)) _

/-- Where its libraries remember their lists, merging the list of a target makes that target alone
remember something. -/
theorem commonSources_of_cached (hnone : (s.target t).sourceCache = none)
    (h : ∀ library, s.Uses t library → s.isCached library = true) :
    ∃ ids, (s.commonSources t).2 = s ∨
      (s.commonSources t).2 = s.modifyTarget t fun x => { x with sourceCache := some ids } := by
  unfold commonSources
  generalize s.targets.length = depth
  cases depth with
  | zero => exact ⟨[], .inl rfl⟩
  | succ depth =>
    rw [commonSourcesWithin, hnone]
    have hmerge : (mergeLibraries (commonSourcesWithin depth) (s.target t).objectLibraries
        (s.target t).sources s).2 = s := mergeLibraries_of_cached h _
    generalize mergeLibraries (commonSourcesWithin depth) (s.target t).objectLibraries
      (s.target t).sources s = out at hmerge ⊢
    obtain ⟨ids, s'⟩ := out
    subst hmerge
    exact ⟨ids, .inr rfl⟩

/-- Merging and forgetting the list of a target once more changes nothing. -/
theorem clearSources_again (h : s.Linked) (hs : s.RemembersBelow) (t : TargetId) :
    let cleared := (s.commonSources t).2.clearSources t
    (cleared.commonSources t).2.clearSources t = cleared := by
  intro cleared
  obtain ⟨hrecalls, hcached⟩ := commonSources_recalls h hs t
  have hlinked : (s.commonSources t).2.Linked := h.of_bare hrecalls.bare
  have hbare : cleared.bare = s.bare := (bare_clearSources _ t).trans hrecalls.bare
  have hcleared : cleared.Linked := h.of_bare hbare
  have hforgotten : cleared.Forgotten t := forgotten_clearSources hlinked t
  have hlibraries (library : TargetId) (huse : cleared.Uses t library) :
      cleared.isCached library = true := by
    rw [uses_of_bare hbare] at huse
    have huse' : (s.commonSources t).2.Uses t library := by rwa [uses_of_bare hrecalls.bare]
    refine (isCached_clearSources hlinked).mpr ⟨?_, ?_⟩
    · exact hrecalls.below t library (hcached (lt_of_uses huse)) huse'
    · rintro (rfl | hreach)
      · exact hlinked.acyclic library (.single huse')
      · exact hlinked.acyclic library (.tail hreach huse')
  have hagain := bare_commonSources cleared t
  have hlinked' : (cleared.commonSources t).2.Linked := hcleared.of_bare hagain
  have hreaches : (cleared.commonSources t).2.Reaches = cleared.Reaches := by
    unfold Reaches
    rw [uses_of_bare hagain]
  refine eq_of_bare_of_cache ((bare_clearSources _ t).trans hagain) ?_
  intro u
  classical
  rw [target_clearSources hlinked', hreaches]
  -- The second merge remembers the list of the target at most, and that is forgotten again.
  by_cases hu : u = t ∨ cleared.Reaches u t
  · rw [if_pos hu, hforgotten u hu]
    rfl
  · rw [if_neg hu]
    obtain ⟨ids, heq | heq⟩ := commonSources_of_cached (hforgotten t (.inl rfl)) hlibraries
    · rw [heq]
    · have hne : t ≠ u := fun htu => hu (.inl htu.symm)
      simp [heq, target_modifyTarget, hne]

end Store

namespace Graph

variable {g g' : Graph} {t : TargetId}

/-- Making a plan merges the list of its target and, if it comes that far, forgets it again. -/
theorem store_of_planRegistered [Environment] (g : Graph) (fs : FileSystem)
    (lister : ResourceLister) (t : TargetId) (ds : Diagnostics) :
    let out := g.planRegistered fs lister t ds
    (out.graph.store = (g.store.commonSources t).2 ∧ ∀ p, out.result ≠ .ok p) ∨
      out.graph.store = (g.store.commonSources t).2.clearSources t := by
  intro out
  simp only [out]
  unfold planRegistered
  simp only
  split
  · exact .inl ⟨rfl, by simp⟩
  · split
    · exact .inl ⟨rfl, by simp⟩
    · split
      · exact .inr rfl
      · exact .inr rfl

theorem remembersBelow_included [Environment] (h : g.store.RemembersBelow) (t : TargetId) :
    (g.included t).store.RemembersBelow :=
  h.congr (part_included Target.sourceCache (fun _ _ => rfl))
    (part_included Target.objectLibraries fun _ _ => rfl)

theorem remembersBelow_plan [Environment] (hg : g.WellFormed) (h : g.store.RemembersBelow)
    (fs : FileSystem) (lister : ResourceLister) (t : TargetId) :
    (g.plan fs lister t).graph.store.RemembersBelow := by
  have hincluded : g.Grows {t} ∅ (g.included t) := included_grows g t
  have hlinked := (hg.grows hincluded).linked
  rw [plan_eq]
  split
  · obtain ⟨hrecalls, -⟩ := Store.commonSources_recalls hlinked (remembersBelow_included h t) t
    rcases store_of_planRegistered (g.included t) fs lister t { target := some (g.target t).name }
      with
      ⟨heq, -⟩ | heq
    · rw [heq]
      exact hrecalls.below
    · rw [heq]
      exact hrecalls.below.cleared (hlinked.of_bare hrecalls.bare) t
  · exact h

theorem remembersBelow_run [Environment] (hg : g.Coherent) (h : g.store.RemembersBelow)
    (fs : FileSystem) (lister : ResourceLister) (t : TargetId) :
    (g.run fs lister t).graph.store.RemembersBelow := by
  have hplan := remembersBelow_plan hg.wellFormed h fs lister t
  rcases run_graph g fs lister t with ⟨fault, -, heq⟩ | ⟨p, hp, heq⟩
  · rw [heq]
    exact hplan
  · obtain ⟨-, hname⟩ := plan_eq_ok hp
    have hgrows := plan_grows hg.wellFormed hg.fresh fs lister t
    have hname' := hname.trans (hgrows.part Target.autogenName (fun _ => rfl) t).symm
    obtain ⟨-, -, htargets⟩ :=
      emit_spec (hg.wellFormed.grows hgrows) hname' fs (g.plan fs lister t).diagnostics
    rw [heq]
    refine hplan.congr ?_ ?_
    · intro u
      obtain ⟨_, _, hu⟩ := htargets u
      exact (congrArg Target.sourceCache hu).trans rfl
    · intro u
      obtain ⟨_, _, hu⟩ := htargets u
      exact (congrArg Target.objectLibraries hu).trans rfl

/-- A call keeps what is remembered below what is remembered. -/
theorem Coherent.remembersBelow_call [Environment] (hg : g.Coherent) (h : g.store.RemembersBelow)
    (hcall : g.Call g') : g'.store.RemembersBelow := by
  have hlinked := hg.wellFormed.linked
  cases hcall with
  | linkLibrary t library ht hlibrary =>
    cases hlink : g.linkLibrary t library with
    | error fault => exact h
    | ok linked =>
      obtain ⟨store, hstore, rfl⟩ := linkLibrary_eq_ok hlink
      obtain ⟨hne, hfree, ⟨-, rfl⟩ | ⟨-, rfl⟩⟩ := Store.linkLibrary_cases hstore
      · exact h
      · have hadded := hlinked.addLink ht hlibrary hne (mt (Store.mem_libraries hlinked).mpr hfree)
        refine h.clearSources hadded ?_ ?_
        · intro u
          rw [Store.target_addLink ht hlibrary]
        · intro u l hu huse
          rcases (Store.uses_addLink ht hlibrary u l).mp huse with hold | ⟨rfl, -⟩
          · exact hold
          · exact absurd rfl hu
  | commonSources t => exact (Store.commonSources_recalls hlinked h t).1.below
  | clearSources t => exact h.cleared hlinked t
  | newSource entry => exact h.congr (fun _ => rfl) fun _ => rfl
  | addSource t id hid =>
    have hsame : (g.store.addSource t id).2.RemembersBelow :=
      h.congr (Store.part_addSource _ (fun _ _ => rfl) g.store t id)
        (Store.part_addSource _ (fun _ _ => rfl) g.store t id)
    exact hsame.cleared (hlinked.addSource t hid) t
  | plan fs lister t => exact remembersBelow_plan hg.wellFormed h fs lister t
  | run fs lister t => exact remembersBelow_run hg h fs lister t

/-- Whatever is called, what is remembered below a target that remembers its list stays. -/
theorem Coherent.remembersBelow_calls [Environment] (hg : g.Coherent) (h : g.store.RemembersBelow)
    (hcalls : Relation.ReflTransGen Call g g') : g'.store.RemembersBelow := by
  induction hcalls with
  | refl => exact h
  | tail hbefore hcall ih => exact (hg.calls hbefore).remembersBelow_call ih hcall

end Graph

end Autogen
