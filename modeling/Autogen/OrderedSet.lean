/-!
# Ordered sets

Sets that list their elements in the order in which they were first added.

## Main definitions

* `OrderedSet` — a list without repetitions.
* `OrderedSet.insert`, `OrderedSet.insertAll`, `OrderedSet.ofList` — addition, which keeps the
  place of an element that is already there.
* `OrderedSet.erase`, `OrderedSet.inter`, `OrderedSet.union`, `OrderedSet.diff`,
  `OrderedSet.symmDiff` — the other operations of sets.
-/

namespace Autogen

/-- A set with an order: a list without repetitions. -/
structure OrderedSet (α : Type) where
  toList : List α
  nodup : toList.Nodup
deriving DecidableEq

namespace OrderedSet

variable {α : Type}

/-- The set without elements. -/
def empty : OrderedSet α :=
  ⟨[], List.nodup_nil⟩

@[simp] theorem toList_empty : (empty : OrderedSet α).toList = [] := rfl

variable [DecidableEq α]

/-- The set with `a` added at its end, unless it is in the set already. -/
def insert (s : OrderedSet α) (a : α) : OrderedSet α :=
  if h : a ∈ s.toList then s
  else ⟨s.toList ++ [a], by
    rw [List.nodup_append]
    exact ⟨s.nodup, by simp, by rintro x hx y hy rfl; simp at hy; exact h (hy ▸ hx)⟩⟩

/-- The set with the elements of a list added in turn. -/
def insertAll (s : OrderedSet α) (items : List α) : OrderedSet α :=
  items.foldl insert s

/-- The set of the elements of a list, in the order of their first occurrences. -/
def ofList (items : List α) : OrderedSet α :=
  empty.insertAll items

/-- Whether `a` is in the set. -/
def contains (s : OrderedSet α) (a : α) : Bool :=
  decide (a ∈ s.toList)

/-- The number of elements. -/
def size (s : OrderedSet α) : Nat :=
  s.toList.length

/-- The elements for which a test holds, in their order. -/
def filter (s : OrderedSet α) (p : α → Bool) : OrderedSet α :=
  ⟨s.toList.filter p, s.nodup.sublist List.filter_sublist⟩

/-- The set without `a`. -/
def erase (s : OrderedSet α) (a : α) : OrderedSet α :=
  s.filter (· ≠ a)

/-- The first element, if there is one, with the set of the others. -/
def popFirst? (s : OrderedSet α) : Option (α × OrderedSet α) :=
  s.toList.head?.map fun a => (a, s.erase a)

/-- Whether every element of `s` is in `t`. -/
def isSubset (s t : OrderedSet α) : Bool :=
  s.toList.all t.contains

/-- Whether two sets have the same elements, in whatever order. -/
def sameElements (s t : OrderedSet α) : Bool :=
  s.isSubset t && t.isSubset s

/-- Whether no element of `s` is in `t`. -/
def isDisjoint (s t : OrderedSet α) : Bool :=
  s.toList.all fun a => !t.contains a

/-- The elements of `t` that are in `s`, in the order of `t`. -/
def inter (s t : OrderedSet α) : OrderedSet α :=
  t.filter s.contains

/-- The elements of `s` followed by the others of `t`. -/
def union (s t : OrderedSet α) : OrderedSet α :=
  s.insertAll t.toList

/-- The elements of `s` that are not in `t`. -/
def diff (s t : OrderedSet α) : OrderedSet α :=
  s.filter fun a => !t.contains a

/-- The elements of `s` only, followed by those of `t` only. -/
def symmDiff (s t : OrderedSet α) : OrderedSet α :=
  (s.diff t).union (t.diff s)

/-- Adding an element appends it, unless it is there already. -/
theorem toList_insert (s : OrderedSet α) (a : α) :
    (s.insert a).toList = if a ∈ s.toList then s.toList else s.toList ++ [a] := by
  unfold insert; split <;> rfl

@[simp] theorem mem_insert {s : OrderedSet α} {a b : α} :
    b ∈ (s.insert a).toList ↔ b ∈ s.toList ∨ b = a := by
  rw [toList_insert]
  split
  · exact ⟨Or.inl, fun h => h.elim id (fun e => by subst e; assumption)⟩
  · simp

@[simp] theorem mem_insertAll {s : OrderedSet α} {items : List α} {b : α} :
    b ∈ (s.insertAll items).toList ↔ b ∈ s.toList ∨ b ∈ items := by
  unfold insertAll
  induction items generalizing s with
  | nil => simp
  | cons a rest ih => simp [ih, or_assoc]

/-- Adding what is in a set changes nothing. -/
theorem insertAll_of_subset {s : OrderedSet α} {items : List α} (h : ∀ a ∈ items, a ∈ s.toList) :
    s.insertAll items = s := by
  unfold insertAll
  induction items with
  | nil => rfl
  | cons a rest ih =>
    have hinsert : s.insert a = s := by rw [insert, dif_pos (h a List.mem_cons_self)]
    rw [List.foldl_cons, hinsert]
    exact ih fun b hb => h b (List.mem_cons_of_mem _ hb)

@[simp] theorem mem_ofList {items : List α} {b : α} :
    b ∈ (ofList items).toList ↔ b ∈ items := by
  simp [ofList]

end OrderedSet

end Autogen
