/-!
# Ordered maps

Maps that list their keys in the order in which they were first given a value. A later value for
the same key takes the place of the earlier one.

## Main definitions

* `OrderedMap` — a list of pairs with distinct keys.
* `OrderedMap.insert`, `OrderedMap.ofList` — giving values to keys.
* `OrderedMap.get?`, `OrderedMap.contains`, `OrderedMap.keys`, `OrderedMap.values` — what is there.
* `OrderedMap.mapValues` — the same keys with other values.
-/

namespace Autogen

/-- A map with an order: a list of pairs with distinct keys. -/
structure OrderedMap (κ α : Type) where
  toList : List (κ × α)
  nodup_keys : (toList.map Prod.fst).Nodup
deriving DecidableEq

namespace OrderedMap

variable {κ α β : Type}

/-- The map without keys. -/
def empty : OrderedMap κ α :=
  ⟨[], by simp⟩

@[simp] theorem toList_empty : (empty : OrderedMap κ α).toList = [] := rfl

variable [DecidableEq κ]

/-- The first value that a list of pairs gives to a key. -/
def find (key : κ) : List (κ × α) → Option α
  | [] => none
  | pair :: rest => if pair.1 = key then some pair.2 else find key rest

/-- A list of pairs with the first value of `key` replaced, or with a new pair at the end. -/
def replace (key : κ) (value : α) : List (κ × α) → List (κ × α)
  | [] => [(key, value)]
  | pair :: rest => if pair.1 = key then (key, value) :: rest else pair :: replace key value rest

/-- Replacing keeps the order of the keys; a new key comes last. -/
theorem keys_replace (key : κ) (value : α) (pairs : List (κ × α)) :
    (replace key value pairs).map Prod.fst =
      if key ∈ pairs.map Prod.fst then pairs.map Prod.fst else pairs.map Prod.fst ++ [key] := by
  induction pairs with
  | nil => simp [replace]
  | cons pair rest ih =>
    by_cases h : pair.1 = key
    · simp [replace, h]
    · have h' : ¬ key = pair.1 := fun e => h e.symm
      simp only [replace, h, if_false, List.map_cons, ih, List.mem_cons, h', false_or]
      split <;> rfl

theorem nodup_replace {key : κ} {value : α} {pairs : List (κ × α)}
    (h : (pairs.map Prod.fst).Nodup) : ((replace key value pairs).map Prod.fst).Nodup := by
  rw [keys_replace]
  split
  · exact h
  · rename_i hk
    rw [List.nodup_append]
    exact ⟨h, by simp, by rintro x hx y hy rfl; simp at hy; exact hk (hy ▸ hx)⟩

/-- Replacing changes the value of one key. -/
theorem find_replace (key other : κ) (value : α) (pairs : List (κ × α)) :
    find other (replace key value pairs) =
      if other = key then some value else find other pairs := by
  induction pairs with
  | nil => simp [replace, find, eq_comm]
  | cons pair rest ih =>
    by_cases h : pair.1 = key
    · by_cases ho : other = key
      · simp [replace, find, h, ho]
      · simp [replace, find, h, ho, show ¬ key = other from fun e => ho e.symm]
    · by_cases hp : pair.1 = other
      · have ho : ¬ other = key := fun e => h (hp.trans e)
        simp only [replace, if_false, find, hp, if_true, ho]
      · simp only [replace, h, if_false, find, hp, ih]

/-- The map with a value for a key: at the key's place if it has one, at the end otherwise. -/
def insert (m : OrderedMap κ α) (key : κ) (value : α) : OrderedMap κ α :=
  ⟨replace key value m.toList, nodup_replace m.nodup_keys⟩

/-- The map of a list of pairs; of several values of a key the last one counts, in the place of
the first. -/
def ofList (pairs : List (κ × α)) : OrderedMap κ α :=
  pairs.foldl (fun m pair => m.insert pair.1 pair.2) empty

/-- The value of a key. -/
def get? (m : OrderedMap κ α) (key : κ) : Option α :=
  find key m.toList

/-- Whether a key has a value. -/
def contains (m : OrderedMap κ α) (key : κ) : Bool :=
  (m.get? key).isSome

/-- The keys in their order. -/
def keys (m : OrderedMap κ α) : List κ :=
  m.toList.map Prod.fst

/-- The values in the order of their keys. -/
def values (m : OrderedMap κ α) : List α :=
  m.toList.map Prod.snd

/-- The map with the same keys and other values. -/
def mapValues (m : OrderedMap κ α) (f : α → β) : OrderedMap κ β :=
  ⟨m.toList.map fun pair => (pair.1, f pair.2), by
    simpa [List.map_map, Function.comp_def] using m.nodup_keys⟩

/-- The map with the value of one key changed, if it has one. -/
def update (m : OrderedMap κ α) (key : κ) (f : α → α) : OrderedMap κ α :=
  match m.get? key with
  | some value => m.insert key (f value)
  | none => m

omit [DecidableEq κ] in
@[simp] theorem values_mapValues (m : OrderedMap κ α) (f : α → β) :
    (m.mapValues f).values = m.values.map f := by
  simp [values, mapValues]

theorem keys_insert (m : OrderedMap κ α) (key : κ) (value : α) :
    (m.insert key value).keys = if key ∈ m.keys then m.keys else m.keys ++ [key] :=
  keys_replace key value m.toList

theorem get?_insert (m : OrderedMap κ α) (key other : κ) (value : α) :
    (m.insert key value).get? other = if other = key then some value else m.get? other :=
  find_replace key other value m.toList

theorem contains_insert {m : OrderedMap κ α} {key other : κ} {value : α} :
    (m.insert key value).contains other ↔ m.contains other ∨ other = key := by
  grind [contains, get?_insert]

@[simp] theorem get?_empty (key : κ) : (empty : OrderedMap κ α).get? key = none := rfl

omit [DecidableEq κ] in
@[ext] theorem ext {m m' : OrderedMap κ α} (h : m.toList = m'.toList) : m = m' := by
  cases m
  cases m'
  simpa using h

theorem find_eq_none {key : κ} {pairs : List (κ × α)} :
    find key pairs = none ↔ key ∉ pairs.map Prod.fst := by
  induction pairs with
  | nil => simp [find]
  | cons pair rest ih =>
    by_cases h : pair.1 = key
    · simp [find, h]
    · simp [find, h, ih, Ne.symm h]

theorem find_eq_some {key : κ} {value : α} {pairs : List (κ × α)}
    (hnodup : (pairs.map Prod.fst).Nodup) :
    find key pairs = some value ↔ (key, value) ∈ pairs := by
  induction pairs with
  | nil => simp [find]
  | cons pair rest ih =>
    obtain ⟨hnew, hrest⟩ := List.nodup_cons.mp hnodup
    by_cases h : pair.1 = key
    · have hout : (key, value) ∉ rest := fun hmem => hnew (h ▸ List.mem_map_of_mem hmem)
      rw [find, if_pos h, List.mem_cons, or_iff_left hout]
      constructor
      · rintro heq
        rw [← h, ← Option.some.inj heq]
      · rintro rfl
        rfl
    · have hne : (key, value) ≠ pair := fun heq => h (heq ▸ rfl)
      rw [find, if_neg h, ih hrest, List.mem_cons, or_iff_right hne]

/-- Giving a key the value that it has changes nothing. -/
theorem insert_of_get? {m : OrderedMap κ α} {key : κ} {value : α} (h : m.get? key = some value) :
    m.insert key value = m := by
  have hreplace {pairs : List (κ × α)} (hfind : find key pairs = some value) :
      replace key value pairs = pairs := by
    induction pairs with
    | nil => cases hfind
    | cons pair rest ih =>
      by_cases heq : pair.1 = key
      · rw [find, if_pos heq] at hfind
        rw [replace, if_pos heq, ← heq, ← Option.some.inj hfind]
      · rw [find, if_neg heq] at hfind
        rw [replace, if_neg heq, ih hfind]
  exact ext (hreplace h)

theorem get?_eq_none {m : OrderedMap κ α} {key : κ} : m.get? key = none ↔ key ∉ m.keys :=
  find_eq_none

theorem get?_eq_some {m : OrderedMap κ α} {key : κ} {value : α} :
    m.get? key = some value ↔ (key, value) ∈ m.toList :=
  find_eq_some m.nodup_keys

theorem mem_values {m : OrderedMap κ α} {value : α} :
    value ∈ m.values ↔ ∃ key, m.get? key = some value := by
  simp [values, get?_eq_some]

/-- What holds of the values of a map and of a new one holds of all values then. -/
theorem forall_mem_values_insert {P : α → Prop} {m : OrderedMap κ α} {value : α}
    (hm : ∀ other ∈ m.values, P other) (hvalue : P value) (key : κ) :
    ∀ other ∈ (m.insert key value).values, P other := by
  intro other hother
  obtain ⟨place, hplace⟩ := mem_values.mp hother
  rw [get?_insert] at hplace
  split at hplace
  · rwa [← Option.some.inj hplace]
  · exact hm other (mem_values.mpr ⟨place, hplace⟩)

theorem replace_of_not_mem {key : κ} {value : α} {pairs : List (κ × α)}
    (h : key ∉ pairs.map Prod.fst) : replace key value pairs = pairs ++ [(key, value)] := by
  induction pairs with
  | nil => rfl
  | cons pair rest ih =>
    rw [List.map_cons, List.mem_cons, not_or] at h
    rw [replace, if_neg (Ne.symm h.1), ih h.2, List.cons_append]

theorem toList_insert_of_not_mem {m : OrderedMap κ α} {key : κ} {value : α} (h : key ∉ m.keys) :
    (m.insert key value).toList = m.toList ++ [(key, value)] :=
  replace_of_not_mem h

/-- A list of pairs with distinct keys is the list of its map. -/
theorem toList_ofList {pairs : List (κ × α)} (h : (pairs.map Prod.fst).Nodup) :
    (ofList pairs).toList = pairs := by
  have hfold (m : OrderedMap κ α) (hnew : (m.keys ++ pairs.map Prod.fst).Nodup) :
      (pairs.foldl (fun m pair => m.insert pair.1 pair.2) m).toList = m.toList ++ pairs := by
    induction pairs generalizing m with
    | nil => simp
    | cons pair rest ih =>
      have hpair : pair.1 ∉ m.keys := fun hmem =>
        (List.nodup_append.mp hnew).2.2 pair.1 hmem pair.1 (by simp) rfl
      have hkeys : (m.insert pair.1 pair.2).keys = m.keys ++ [pair.1] := by
        rw [keys_insert, if_neg hpair]
      rw [List.foldl_cons, ih (List.nodup_cons.mp h).2, toList_insert_of_not_mem hpair]
      · simp
      · simpa [hkeys] using hnew
  simpa [ofList] using hfold .empty (by simpa [keys] using h)

/-- A map made of pairs gives values of these pairs alone. -/
theorem mem_of_get?_ofList {pairs : List (κ × α)} {key : κ} {value : α}
    (h : (ofList pairs).get? key = some value) : (key, value) ∈ pairs := by
  have hfold (m : OrderedMap κ α)
      (hm : (pairs.foldl (fun m pair => m.insert pair.1 pair.2) m).get? key = some value) :
      (key, value) ∈ pairs ∨ m.get? key = some value := by
    clear h
    induction pairs generalizing m with
    | nil => exact .inr hm
    | cons pair rest ih =>
      rcases ih (m.insert pair.1 pair.2) hm with hrest | hfirst
      · exact .inl (List.mem_cons_of_mem _ hrest)
      · rw [get?_insert] at hfirst
        split at hfirst
        · rename_i heq
          left
          rw [heq, ← Option.some.inj hfirst]
          exact List.mem_cons_self
        · exact .inr hfirst
  exact (hfold .empty h).resolve_right (by simp)

theorem mem_keys_ofList {pairs : List (κ × α)} {key : κ} :
    key ∈ (ofList pairs).keys ↔ key ∈ pairs.map Prod.fst := by
  have hfold (m : OrderedMap κ α) :
      key ∈ (pairs.foldl (fun m pair => m.insert pair.1 pair.2) m).keys ↔
        key ∈ m.keys ∨ key ∈ pairs.map Prod.fst := by
    induction pairs generalizing m with
    | nil => simp
    | cons pair rest ih =>
      rw [List.foldl_cons, ih, keys_insert]
      split
      · rename_i hold
        simp only [List.map_cons, List.mem_cons]
        constructor
        · exact Or.imp_right .inr
        · rintro (h | rfl | h)
          · exact .inl h
          · exact .inl hold
          · exact .inr h
      · simp [or_assoc]
  simpa [ofList, keys] using hfold .empty

end OrderedMap

end Autogen
