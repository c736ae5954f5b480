import Autogen.Options
import Mathlib.Data.List.Basic

/-!
# Merging lists of options

Merging writes values of the file over tokens of the target and adds tokens of the file at the end,
in lists of any form. Where both lists are made of options with their values, this is an update by
option that keeps the order.

## Main definitions

* `Options.Item` — an option, with its value if it takes one.
* `Options.flatten` — the tokens of items.
* `Options.Keyed` — items of which each stands for an option of its own.
* `Options.updatedBy` — an item with the value that other items give to its option.

## Main statements

* `Options.merge_eq_append` — what merging leaves alone in lists of any form.
* `Options.merge_flatten` — merging lists of items is an update by option.
-/

namespace Autogen.Options

variable {stripDoubleDash : Bool}

/-! ## Lists of any form -/

section AnyForm

variable {merged file : List String}

theorem length_update (stripDoubleDash : Bool) (merged file : List String) :
    (update stripDoubleDash merged file).1.length = merged.length := by
  fun_induction update stripDoubleDash merged file <;> simp_all

/-- What is added are tokens of the file in their order. -/
theorem sublist_update (stripDoubleDash : Bool) (merged file : List String) :
    (update stripDoubleDash merged file).2.Sublist file := by
  fun_induction update stripDoubleDash merged file <;> grind

/-- A file that shares no token with the target is added as it is. -/
theorem update_of_disjoint (h : merged.Disjoint file) :
    update stripDoubleDash merged file = (merged, file) := by
  fun_induction update stripDoubleDash merged file <;> grind [List.Disjoint]

/-- A token stands in the file behind an option that takes a value. -/
def IsValueIn (stripDoubleDash : Bool) (file : List String) (value : String) : Prop :=
  ∃ j option, file[j]? = some option ∧ takesValue stripDoubleDash option ∧ file[j + 1]? = some value

theorem IsValueIn.cons {value : String} (h : IsValueIn stripDoubleDash file value)
    (token : String) :
    IsValueIn stripDoubleDash (token :: file) value := by
  obtain ⟨j, option, hoption, htakes, hvalue⟩ := h
  exact ⟨j + 1, option, hoption, htakes, hvalue⟩

/-- A token changes only behind another one, and into a value of the file. The induction is on the
file: whatever was written earlier, the last change of a token is one by such a value. -/
theorem isValueIn_of_changed {i : Nat}
    (h : (update stripDoubleDash merged file).1[i]? ≠ merged[i]?) :
    1 ≤ i ∧ ∃ value, (update stripDoubleDash merged file).1[i]? = some value ∧
      IsValueIn stripDoubleDash file value := by
  fun_induction update stripDoubleDash merged file with
  | case1 merged => exact absurd rfl h
  | case2 merged token => exact absurd rfl h
  | case3 merged token value rest hshared place hwritten ih =>
    -- Either the rest of the file changes this place again, or it keeps what is written here.
    by_cases hlater : (update stripDoubleDash (merged.set place value) rest).1[i]? =
        (merged.set place value)[i]?
    · rw [hlater] at h ⊢
      obtain rfl : i = place := by
        by_contra hne
        exact h (List.getElem?_set_ne (Ne.symm hne))
      refine ⟨Nat.le_add_left 1 _, value, List.getElem?_set_self hwritten.2, 0, token,
        rfl, hwritten.1, rfl⟩
    · obtain ⟨hi, written, heq, hvalue⟩ := ih hlater
      exact ⟨hi, written, heq, (hvalue.cons value).cons token⟩
  | case4 merged token value rest hshared place hkept ih =>
    obtain ⟨hi, written, heq, hvalue⟩ := ih h
    exact ⟨hi, written, heq, hvalue.cons token⟩
  | case5 merged token value rest hnew htakes later extra hupdate ih =>
    rw [hupdate] at ih
    obtain ⟨hi, written, heq, hvalue⟩ := ih h
    exact ⟨hi, written, heq, (hvalue.cons value).cons token⟩
  | case6 merged token value rest hnew htakes later extra hupdate ih =>
    rw [hupdate] at ih
    obtain ⟨hi, written, heq, hvalue⟩ := ih h
    exact ⟨hi, written, heq, hvalue.cons token⟩

/-- Merging keeps every token of the target in its place unless a value of the file is written
there, never the first one, and adds tokens of the file in their order; a file that shares no token
with the target is added as it is. -/
theorem merge_eq_append (stripDoubleDash : Bool) (target file : List String) :
    ∃ kept added, merge stripDoubleDash target file = kept ++ added ∧
      kept.length = target.length ∧ added.Sublist file ∧
      (∀ i, kept[i]? ≠ target[i]? → 1 ≤ i ∧ ∃ value, kept[i]? = some value ∧
        IsValueIn stripDoubleDash file value) ∧
      (target.Disjoint file → merge stripDoubleDash target file = target ++ file) := by
  refine ⟨(update stripDoubleDash target file).1, (update stripDoubleDash target file).2, rfl,
    length_update .., sublist_update .., fun i hi => isValueIn_of_changed hi, fun hdisjoint => ?_⟩
  rw [merge, update_of_disjoint hdisjoint]

end AnyForm

/-! ## Items -/

/-- An option, with its value if it takes one. -/
structure Item where
  head : String
  value? : Option String
deriving DecidableEq, Repr

/-- The tokens of an item. -/
def Item.tokens (item : Item) : List String :=
  item.head :: item.value?.toList

/-- The tokens of items. -/
def flatten (items : List Item) : List String :=
  items.flatMap Item.tokens

/-- Items of which each stands for an option of its own, which has a value exactly if it takes
one. -/
structure Keyed (stripDoubleDash : Bool) (items : List Item) : Prop where
  takes : ∀ item ∈ items, takesValue stripDoubleDash item.head = item.value?.isSome
  nodup : (items.map Item.head).Nodup

/-- An item with the value that other items give to its option. -/
def updatedBy (others : List Item) (item : Item) : Item :=
  (others.find? fun other => other.head = item.head).getD item

section Items

variable {items target file : List Item} {item : Item} {option value : String}

theorem flatten_cons (item : Item) (items : List Item) :
    flatten (item :: items) = item.tokens ++ flatten items :=
  List.flatMap_cons

theorem Keyed.tail (h : Keyed stripDoubleDash (item :: items)) : Keyed stripDoubleDash items :=
  ⟨fun other hother => h.takes other (List.mem_cons_of_mem _ hother),
    (List.nodup_cons.mp h.nodup).2⟩

theorem updatedBy_cons (other : Item) (others : List Item) (item : Item) :
    updatedBy (other :: others) item = if other.head = item.head then other
      else updatedBy others item := by
  unfold updatedBy
  by_cases h : other.head = item.head <;> simp [h]

theorem updatedBy_of_not_mem {others : List Item} (h : item.head ∉ others.map Item.head) :
    updatedBy others item = item := by
  induction others with
  | nil => rfl
  | cons other rest ih =>
    rw [List.map_cons, List.mem_cons, not_or] at h
    rw [updatedBy_cons, if_neg (Ne.symm h.1), ih h.2]

theorem head_updatedBy (others : List Item) (item : Item) :
    (updatedBy others item).head = item.head := by
  induction others with
  | nil => rfl
  | cons other rest ih =>
    rw [updatedBy_cons]
    split
    · assumption
    · exact ih

theorem heads_map_updatedBy (others items : List Item) :
    (items.map (updatedBy others)).map Item.head = items.map Item.head := by
  rw [List.map_map]
  exact List.map_congr_left fun item _ => head_updatedBy others item

/-- Giving items the value of an item changes nothing where no other item stands for its option. -/
theorem map_updatedBy_eq_self (h : ∀ other ∈ items, other.head = item.head → other = item) :
    items.map (updatedBy [item]) = items := by
  have hsame : ∀ other ∈ items, updatedBy [item] other = other := by
    intro other hother
    rw [updatedBy_cons]
    split
    · rename_i heq
      exact (h other hother heq.symm).symm
    · rfl
  rw [List.map_congr_left hsame, List.map_id']

theorem map_updatedBy_of_not_mem (h : item.head ∉ items.map Item.head) :
    items.map (updatedBy [item]) = items :=
  map_updatedBy_eq_self fun _ hother heq => absurd (heq ▸ List.mem_map_of_mem hother) h

/-- Items are updated by other items one after the other. -/
theorem map_updatedBy_cons {others : List Item} (h : item.head ∉ others.map Item.head) :
    items.map (updatedBy (item :: others)) = (items.map (updatedBy [item])).map
      (updatedBy others) := by
  rw [List.map_map]
  refine List.map_congr_left fun other _ => ?_
  rw [Function.comp_apply, updatedBy_cons, updatedBy_cons]
  split
  · rw [updatedBy_of_not_mem h]
  · rfl

theorem Keyed.map_updatedBy (h : Keyed stripDoubleDash items)
    (hitem : takesValue stripDoubleDash item.head = item.value?.isSome) :
    Keyed stripDoubleDash (items.map (updatedBy [item])) := by
  refine ⟨fun other hother => ?_, by rw [heads_map_updatedBy]; exact h.nodup⟩
  obtain ⟨old, hold, rfl⟩ := List.mem_map.mp hother
  rw [updatedBy_cons]
  split
  · exact hitem
  · exact h.takes old hold

/-- A token that is the value of no item is found among the tokens as the option of an item. -/
theorem mem_flatten_iff (h : ∀ item ∈ items, option ∉ item.value?) :
    option ∈ flatten items ↔ option ∈ items.map Item.head := by
  simp only [flatten, Item.tokens, List.mem_flatMap, List.mem_map, List.mem_cons, Option.mem_toList]
  grind

/-- Writing behind an option among the tokens of items is giving its item that value. -/
theorem set_flatten (hitems : Keyed stripDoubleDash items)
    (hvalues : ∀ other ∈ items, option ∉ other.value?) (htakes : takesValue stripDoubleDash option)
    (hmem : option ∈ items.map Item.head) :
    (flatten items).idxOf option + 1 < (flatten items).length ∧
      (flatten items).set ((flatten items).idxOf option + 1) value =
        flatten (items.map (updatedBy [⟨option, some value⟩])) := by
  induction items with
  | nil => cases hmem
  | cons item rest ih =>
    by_cases hhead : item.head = option
    · subst hhead
      obtain ⟨old, hold⟩ : ∃ old, item.value? = some old := by
        rw [← Option.isSome_iff_exists, ← hitems.takes item List.mem_cons_self, htakes]
      have htokens : flatten (item :: rest) = item.head :: old :: flatten rest := by
        rw [flatten_cons, Item.tokens, hold]
        rfl
      have hrest : rest.map (updatedBy [⟨item.head, some value⟩]) = rest :=
        map_updatedBy_of_not_mem (List.nodup_cons.mp hitems.nodup).1
      rw [htokens, List.idxOf_cons_self, List.map_cons, hrest, flatten_cons,
        updatedBy_cons, if_pos rfl]
      exact ⟨by simp, rfl⟩
    -- The option is no token of this item, not even its value, so its first place is further on.
    · have hout : option ∉ item.tokens := by
        simpa [Item.tokens] using ⟨Ne.symm hhead, hvalues item List.mem_cons_self⟩
      have hplace :
          (flatten (item :: rest)).idxOf option =
            item.tokens.length + (flatten rest).idxOf option := by
        rw [flatten_cons, List.idxOf_append_of_notMem hout]
      have hitem : updatedBy [⟨option, some value⟩] item = item :=
        updatedBy_of_not_mem (by simpa using hhead)
      obtain ⟨hlt, hset⟩ :=
        ih hitems.tail (fun other hother => hvalues other (List.mem_cons_of_mem _ hother))
        ((List.mem_cons.mp hmem).resolve_left (Ne.symm hhead))
      rw [hplace, List.map_cons, hitem, flatten_cons, flatten_cons, ← hset,
        List.length_append, Nat.add_assoc, List.set_append_right _ _ (Nat.le_add_right _ _),
        Nat.add_sub_cancel_left]
      exact ⟨Nat.add_lt_add_left hlt _, rfl⟩

/-- A token that takes no value is looked at alone. -/
theorem update_cons_of_not_takesValue {token : String}
    (h : takesValue stripDoubleDash token = false) (merged rest : List String) :
    update stripDoubleDash merged (token :: rest) = ((update stripDoubleDash merged rest).1,
      (if token ∈ merged then [] else [token]) ++ (update stripDoubleDash merged rest).2) := by
  cases rest with
  | nil => simp [update]
  | cons value rest =>
    rw [update]
    split <;> simp [h]

/-- What one item of the file does to the items of the target, and what it adds. -/
theorem update_item (hitems : Keyed stripDoubleDash items)
    (hvalues : ∀ other ∈ items, item.head ∉ other.value?)
    (hitem : takesValue stripDoubleDash item.head = item.value?.isSome) (rest : List String) :
    update stripDoubleDash (flatten items) (item.tokens ++ rest) =
      ((update stripDoubleDash (flatten (items.map (updatedBy [item]))) rest).1,
        (if item.head ∈ items.map Item.head then [] else item.tokens) ++
          (update stripDoubleDash (flatten (items.map (updatedBy [item]))) rest).2) := by
  have hshared : item.head ∈ flatten items ↔ item.head ∈ items.map Item.head :=
    mem_flatten_iff hvalues
  obtain ⟨head, value?⟩ := item
  cases value? with
  | none =>
    -- An item without a value has none to give to the items of the target.
    have hsame : items.map (updatedBy [⟨head, none⟩]) = items := by
      refine map_updatedBy_eq_self fun other hother heq => ?_
      have hvalue : other.value?.isSome = false := by
        rw [← hitems.takes other hother, heq]
        exact hitem
      obtain ⟨option, value?⟩ := other
      simp_all
    rw [hsame, Item.tokens, Option.toList_none, List.singleton_append,
      update_cons_of_not_takesValue hitem]
    simp only [hshared]
  | some value =>
    have htokens : (Item.mk head (some value)).tokens ++ rest = head :: value :: rest := rfl
    have htakes : takesValue stripDoubleDash head = true := hitem
    rw [htokens, update]
    by_cases hmem : head ∈ items.map Item.head
    · obtain ⟨hlt, hset⟩ := set_flatten hitems hvalues htakes hmem
      rw [if_pos (hshared.mpr hmem), if_pos ⟨htakes, hlt⟩, if_pos hmem, hset, List.nil_append]
    · have hsame : items.map (updatedBy [⟨head, some value⟩]) = items :=
        map_updatedBy_of_not_mem hmem
      rw [if_neg (mt hshared.mp hmem), if_pos htakes, if_neg hmem, hsame]
      rfl

/-- Going through the items of a file gives the items of the target the values of the file and adds
the items that the target lacks. -/
theorem update_flatten (htarget : Keyed stripDoubleDash target) (hfile : Keyed stripDoubleDash file)
    (hvalues : ∀ item ∈ target ++ file, ∀ other ∈ file, other.head ∉ item.value?) :
    update stripDoubleDash (flatten target) (flatten file) =
      (flatten (target.map (updatedBy file)),
        flatten (file.filter fun item => item.head ∉ target.map Item.head)) := by
  induction file generalizing target with
  | nil =>
    rw [List.map_congr_left fun item _ => updatedBy_of_not_mem List.not_mem_nil, List.map_id']
    rfl
  | cons item rest ih =>
    obtain ⟨hnew, -⟩ := List.nodup_cons.mp hfile.nodup
    have hitem := hfile.takes item List.mem_cons_self
    -- The values that the target takes from the file are no options of the file either.
    have hvaluesNext : ∀ next ∈ target.map (updatedBy [item]) ++ rest, ∀ other ∈ rest,
        other.head ∉ next.value? := by
      intro next hnext other hother
      have hold : ∀ old ∈ target ++ item :: rest, other.head ∉ old.value? := fun old hold =>
        hvalues old hold other (List.mem_cons_of_mem _ hother)
      rcases List.mem_append.mp hnext with hnext | hnext
      · obtain ⟨old, htarget, rfl⟩ := List.mem_map.mp hnext
        rw [updatedBy_cons]
        split
        · exact hold item (by simp)
        · exact hold old (List.mem_append_left _ htarget)
      · exact hold next (by simp [hnext])
    have hnext := ih (htarget.map_updatedBy hitem) hfile.tail hvaluesNext
    have hkept : ∀ other ∈ target, item.head ∉ other.value? := fun other hother =>
      hvalues other (List.mem_append_left _ hother) item List.mem_cons_self
    rw [flatten_cons, update_item htarget hkept hitem, hnext, map_updatedBy_cons hnew,
      heads_map_updatedBy, List.filter_cons]
    by_cases hmem : item.head ∈ target.map Item.head
    · simp [hmem]
    · simp [hmem, flatten_cons]

/-- Where each item stands for an option of its own and no value is an option of the file, merging
gives the items of the target in their order, each with the value that the file gives to its option,
followed by the items of the file whose options the target lacks, in their order. -/
theorem merge_flatten (htarget : Keyed stripDoubleDash target) (hfile : Keyed stripDoubleDash file)
    (hvalues : ∀ item ∈ target ++ file, ∀ other ∈ file, other.head ∉ item.value?) :
    merge stripDoubleDash (flatten target) (flatten file) =
      flatten (target.map (updatedBy file) ++ file.filter fun item =>
        item.head ∉ target.map Item.head) := by
  rw [merge, update_flatten htarget hfile hvalues, flatten, flatten, flatten, List.flatMap_append]

/-- The name is replaced, the switch stays, and the root is added with its value. -/
theorem merge_flatten_nameAndRoot :
    Keyed true [⟨"--name", some "foo"⟩, ⟨"--verbose", none⟩] ∧
      Keyed true [⟨"--name", some "bar"⟩, ⟨"--root", some "/r"⟩] ∧
      merge true ["--name", "foo", "--verbose"] ["--name", "bar", "--root", "/r"] =
        ["--name", "bar", "--verbose", "--root", "/r"] := by
  have htarget : Keyed true [⟨"--name", some "foo"⟩, ⟨"--verbose", none⟩] := ⟨by decide, by decide⟩
  have hfile : Keyed true [⟨"--name", some "bar"⟩, ⟨"--root", some "/r"⟩] := ⟨by decide, by decide⟩
  exact ⟨htarget, hfile, merge_flatten htarget hfile (by decide)⟩

end Items

end Autogen.Options
