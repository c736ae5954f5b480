import Autogen.Classification
import Mathlib.Data.List.Induction

/-!
# First entries

Lists in which an entry counts only if its key is new. Ordered sets, and maps in which the first
value for a key stays, list what they were given in this way.

## Main definitions

* `firstsBy` — the first one of the entries with each key.
* `AreFirsts` — what makes a list the one of these entries.

## Main statements

* `firstsBy_concat` — an entry at the end counts if its key is new.
* `map_firstsBy` — the keys of the entries that count.
* `areFirsts_firstsBy` — which entries count, and in which order.
* `firstsBy_append`, `firstsBy_append_firstsBy` — first entries of lists that are put together.
* `eraseDups_perm_of_mem_iff` — which elements count does not depend on the order or the repetitions
  in a list.
* `OrderedSet.toList_ofList` — what the set of a list's elements lists.
* `toList_insert_of_collected`, `toList_giveFirst_of_collected` — what a set and a map list when one
  more entry is given to them.
-/

namespace Autogen

section Lists

variable {α κ : Type}

/-- An element at the end counts unless one like it counts already. -/
theorem eraseDupsBy_concat (alike : α → α → Bool) (l : List α) (a : α) :
    (l ++ [a]).eraseDupsBy alike =
      if (l.eraseDupsBy alike).any (alike a) then l.eraseDupsBy alike
      else l.eraseDupsBy alike ++ [a] := by
  have hloop (seen : List α) : List.eraseDupsBy.loop alike (l ++ [a]) seen =
      if (List.eraseDupsBy.loop alike l seen).any (alike a) then List.eraseDupsBy.loop alike l seen
      else List.eraseDupsBy.loop alike l seen ++ [a] := by
    induction l generalizing seen with
    | nil => cases hnew : seen.any (alike a) <;> simp [List.eraseDupsBy.loop, hnew]
    | cons b rest ih => cases hnew : seen.any (alike b) <;> simp [List.eraseDupsBy.loop, hnew, ih]
  exact hloop []

variable [DecidableEq κ]

/-- The first one of the entries with each key. -/
def firstsBy (key : α → κ) (l : List α) : List α :=
  l.eraseDupsBy fun a b => key a == key b

theorem mem_map_firstsBy {key : α → κ} {l : List α} {k : κ} :
    k ∈ (firstsBy key l).map key ↔ k ∈ l.map key := by
  induction l using List.reverseRecOn with
  | nil => rfl
  | append_singleton l a ih =>
    rw [firstsBy, eraseDupsBy_concat, ← firstsBy, List.map_append, List.mem_append, ← ih]
    split
    · rename_i hold
      have hmem : key a ∈ (firstsBy key l).map key := by
        obtain ⟨b, hb, hkey⟩ := List.any_eq_true.mp hold
        exact List.mem_map.mpr ⟨b, hb, (eq_of_beq hkey).symm⟩
      simp only [List.map_singleton, List.mem_singleton]
      exact ⟨.inl, fun h => h.elim id fun heq => heq ▸ hmem⟩
    · rw [List.map_append, List.mem_append]

/-- An entry at the end counts if its key is new. -/
theorem firstsBy_concat (key : α → κ) (l : List α) (a : α) :
    firstsBy key (l ++ [a]) =
      if key a ∈ l.map key then firstsBy key l else firstsBy key l ++ [a] := by
  have hany : (firstsBy key l).any (fun b => key a == key b) = true ↔ key a ∈ l.map key := by
    rw [← mem_map_firstsBy, List.any_eq_true, List.mem_map]
    exact exists_congr fun b => and_congr_right fun _ => beq_iff_eq.trans eq_comm
  rw [firstsBy, eraseDupsBy_concat, ← firstsBy]
  exact if_congr hany rfl rfl

theorem mem_of_mem_firstsBy {key : α → κ} {l : List α} {a : α} (h : a ∈ firstsBy key l) :
    a ∈ l := by
  induction l using List.reverseRecOn with
  | nil => exact h
  | append_singleton l last ih =>
    rw [firstsBy_concat] at h
    split at h
    · exact List.mem_append_left _ (ih h)
    · rcases List.mem_append.mp h with h | h
      · exact List.mem_append_left _ (ih h)
      · exact List.mem_append_right _ h

theorem eraseDups_concat (l : List κ) (k : κ) :
    (l ++ [k]).eraseDups = if k ∈ l then l.eraseDups else l.eraseDups ++ [k] := by
  exact (firstsBy_concat id l k).trans (if_congr (by simp) rfl rfl)

/-- The keys of the first entries are all keys, each of them once. -/
theorem map_firstsBy (key : α → κ) (l : List α) :
    (firstsBy key l).map key = (l.map key).eraseDups := by
  induction l using List.reverseRecOn with
  | nil => rfl
  | append_singleton l a ih =>
    rw [firstsBy_concat, List.map_append, List.map_singleton, eraseDups_concat]
    split
    · exact ih
    · rw [List.map_append, ih, List.map_singleton]

theorem nodup_eraseDups (l : List κ) : l.eraseDups.Nodup := by
  induction l using List.reverseRecOn with
  | nil => exact List.nodup_nil
  | append_singleton l k ih =>
    rw [eraseDups_concat]
    split
    · exact ih
    · rename_i hnew
      rw [List.nodup_append]
      refine ⟨ih, by simp, ?_⟩
      rintro a ha _ hk rfl
      exact hnew (List.mem_singleton.mp hk ▸ List.mem_eraseDups.mp ha)

theorem nodup_map_firstsBy (key : α → κ) (l : List α) : ((firstsBy key l).map key).Nodup :=
  map_firstsBy key l ▸ nodup_eraseDups _

/-- Entries with distinct keys all count. -/
theorem firstsBy_of_nodup {key : α → κ} {l : List α} (h : (l.map key).Nodup) :
    firstsBy key l = l := by
  induction l using List.reverseRecOn with
  | nil => rfl
  | append_singleton l a ih =>
    rw [List.map_append, List.nodup_append] at h
    have hnew : key a ∉ l.map key := fun hold => h.2.2 _ hold _ (List.mem_singleton_self _) rfl
    rw [firstsBy_concat, if_neg hnew, ih h.1]

/-- Behind other entries, an entry counts if it does without them and none of them has its key. -/
theorem firstsBy_append (key : α → κ) (l m : List α) :
    firstsBy key (l ++ m) = firstsBy key l ++ (firstsBy key m).filter (key · ∉ l.map key) := by
  induction m using List.reverseRecOn with
  | nil => exact (congrArg _ (List.append_nil l)).trans (List.append_nil _).symm
  | append_singleton m a ih =>
    have hmem : key a ∈ (l ++ m).map key ↔ key a ∈ l.map key ∨ key a ∈ m.map key := by
      rw [List.map_append, List.mem_append]
    rw [← List.append_assoc, firstsBy_concat, firstsBy_concat, ih]
    by_cases hearlier : key a ∈ m.map key
    · rw [if_pos (hmem.mpr (.inr hearlier)), if_pos hearlier]
    · rw [if_neg hearlier, List.filter_append]
      by_cases hbefore : key a ∈ l.map key
      · rw [if_pos (hmem.mpr (.inl hbefore)), List.filter_cons_of_neg (by simpa using hbefore),
          List.filter_nil, List.append_nil]
      · rw [if_neg fun h => (hmem.mp h).elim hbefore hearlier,
          List.filter_cons_of_pos (by simpa using hbefore), List.filter_nil, List.append_assoc]

theorem firstsBy_cons (key : α → κ) (a : α) (l : List α) :
    firstsBy key (a :: l) = a :: (firstsBy key l).filter (key · ≠ key a) := by
  refine (firstsBy_append key [a] l).trans ?_
  simp only [List.map_singleton, List.mem_singleton]
  rfl

/-- Entries that do not count among the later ones do not count behind others either. -/
theorem firstsBy_append_firstsBy (key : α → κ) (l m : List α) :
    firstsBy key (l ++ firstsBy key m) = firstsBy key (l ++ m) := by
  rw [firstsBy_append, firstsBy_append, firstsBy_of_nodup (nodup_map_firstsBy key m)]

/-- Dropping repetitions among the entries in front makes no difference. -/
theorem firstsBy_firstsBy_append (key : α → κ) (l m : List α) :
    firstsBy key (firstsBy key l ++ m) = firstsBy key (l ++ m) := by
  rw [firstsBy_append, firstsBy_append, firstsBy_of_nodup (nodup_map_firstsBy key l)]
  simp only [mem_map_firstsBy]

/-- The second list has, for each key of the entries in the first one, the first entry with that
key, in the order in which the keys come up. -/
structure AreFirsts (key : α → κ) (l firsts : List α) : Prop where
  nodup : (firsts.map key).Nodup
  keys : ∀ k, k ∈ firsts.map key ↔ k ∈ l.map key
  first : ∀ a ∈ firsts, l.find? (key · = key a) = some a
  order : firsts.Pairwise fun a b => l.findIdx (key · = key a) < l.findIdx (key · = key b)

/-- Which entries count, and in which order. -/
theorem areFirsts_firstsBy (key : α → κ) (l : List α) : AreFirsts key l (firstsBy key l) := by
  refine ⟨nodup_map_firstsBy key l, fun _ => mem_map_firstsBy, ?first, ?order⟩
  case first =>
    induction l with
    | nil => simp [firstsBy]
    | cons a l ih =>
      intro b hb
      rw [firstsBy_cons, List.mem_cons, List.mem_filter] at hb
      obtain rfl | ⟨hb, hkey⟩ := hb
      · exact List.find?_cons_of_pos (decide_eq_true rfl)
      · rw [List.find?_cons_of_neg (by grind)]
        exact ih b hb
  case order =>
    induction l with
    | nil => exact List.Pairwise.nil
    | cons a l ih =>
      have hlater (b : α) (hb : b ∈ (firstsBy key l).filter (key · ≠ key a)) :
          (a :: l).findIdx (key · = key b) = l.findIdx (key · = key b) + 1 := by
        have hkey : key b ≠ key a := by simpa using (List.mem_filter.mp hb).2
        rw [List.findIdx_cons, decide_eq_false hkey.symm, cond_false]
      rw [firstsBy_cons]
      -- The head is found at once; what is behind it moves by one place.
      refine .cons (fun b hb => ?_)
        ((ih.sublist List.filter_sublist).imp_of_mem fun hb hc hlt => ?_)
      · rw [hlater b hb, List.findIdx_cons, decide_eq_true rfl, cond_true]
        exact Nat.succ_pos _
      · rw [hlater _ hb, hlater _ hc]
        exact Nat.succ_lt_succ hlt

/-- Lists with the same elements have them in some order. -/
theorem eraseDups_perm_of_mem_iff {l l' : List κ} (h : ∀ k, k ∈ l ↔ k ∈ l') :
    l.eraseDups.Perm l'.eraseDups := by
  rw [List.perm_ext_iff_of_nodup (nodup_eraseDups l) (nodup_eraseDups l')]
  intro k
  rw [List.mem_eraseDups, List.mem_eraseDups, h k]

/-- Which elements a list has does not depend on its order. -/
theorem eraseDups_perm {l l' : List κ} (h : l.Perm l') : l.eraseDups.Perm l'.eraseDups :=
  eraseDups_perm_of_mem_iff fun _ => h.mem_iff

/-- A set lists the elements that it was made of, each of them once. -/
theorem OrderedSet.toList_ofList (l : List κ) : (OrderedSet.ofList l).toList = l.eraseDups := by
  induction l using List.reverseRecOn with
  | nil => rfl
  | append_singleton l k ih =>
    have hconcat : OrderedSet.ofList (l ++ [k]) = (OrderedSet.ofList l).insert k :=
      List.foldl_append
    rw [hconcat, OrderedSet.toList_insert, eraseDups_concat, ih]
    simp only [List.mem_eraseDups]

end Lists

/-! ## Filling sets and maps -/

section Filling

variable {α β γ κ : Type} [DecidableEq κ] {p : β → Bool} {seen : List β}

/-- A set that lists what a test lets through does so when one more entry was tested. -/
theorem toList_insert_of_collected {s : OrderedSet κ} {f : β → κ}
    (h : s.toList = ((seen.filter p).map f).eraseDups) (b : β) :
    (if p b then s.insert (f b) else s).toList = (((seen ++ [b]).filter p).map f).eraseDups := by
  rw [List.filter_append, List.map_append]
  cases hb : p b with
  | false => simp [hb, h]
  | true =>
    rw [if_pos rfl, List.filter_cons_of_pos hb, List.filter_nil,
      List.map_singleton, eraseDups_concat, OrderedSet.toList_insert, h]
    simp only [List.mem_eraseDups]

/-- A map that keeps the first value for each key among what a test lets through does so when one
more entry was tested. -/
theorem toList_giveFirst_of_collected {m : OrderedMap String γ} {entry : β → α} {key : α → String}
    {value : α → γ}
    (h : m.toList = (firstsBy key ((seen.filter p).map entry)).map fun a => (key a, value a))
    (b : β) :
    (if p b then Classifier.giveFirst m (key (entry b)) (value (entry b)) else m).toList =
      (firstsBy key (((seen ++ [b]).filter p).map entry)).map fun a => (key a, value a) := by
  rw [List.filter_append, List.map_append]
  cases hb : p b with
  | false => simp [hb, h]
  | true =>
    have hkeys : m.keys = ((seen.filter p).map fun b => key (entry b)).eraseDups := by
      rw [OrderedMap.keys, h, List.map_map]
      exact (map_firstsBy key _).trans (congrArg List.eraseDups (List.map_map))
    have hcontains : m.contains (key (entry b)) = true ↔
        key (entry b) ∈ ((seen.filter p).map entry).map key := by
      rw [OrderedMap.contains, Option.isSome_iff_ne_none, ne_eq, OrderedMap.get?_eq_none,
        not_not, hkeys, List.mem_eraseDups, List.map_map]
      rfl
    rw [if_pos rfl, List.filter_cons_of_pos hb, List.filter_nil,
      List.map_singleton, firstsBy_concat, Classifier.giveFirst]
    by_cases hold : key (entry b) ∈ ((seen.filter p).map entry).map key
    · rw [if_pos (hcontains.mpr hold), if_pos hold, h]
    · have hnew : key (entry b) ∉ m.keys := by
        rw [hkeys, List.mem_eraseDups]
        simpa using hold
      rw [if_neg (mt hcontains.mp hold), if_neg hold, OrderedMap.toList_insert_of_not_mem hnew, h,
        List.map_append, List.map_singleton]

end Filling

end Autogen
