import Autogen.ConfigDiff
import Autogen.Descriptor.Basic
import Autogen.Proofs.Text.Split
import Mathlib.Data.List.Infix
import Mathlib.Tactic.IntervalCases

/-!
# Lists in a descriptor

The elements of a list that is written as one text are found again by splitting it, also where the
elements are lists themselves.

## Main definitions

* `Nestable` — texts that can be elements of a list inside a list.

## Main statements

* `splitList_joinList` — the elements of a list are found again.
* `splitList_joinList_eq_flatMap`, `splitList_joinList_eq_iff` — what is found where separators are
  in them.
* `splitList_joinNested` — the elements of a list inside a list are found again.
-/

namespace Autogen

variable {items : List String}

/-- Elements apart from the separator are found again. The empty text stands for the empty list, so
one empty element alone is not. -/
theorem splitList_join {sep : String} (hsep : sep.toList ≠ [])
    (hplain : sep.toList.any Text.isHoldingPart = false) (hitems : items ≠ [""])
    (happart : ∀ item ∈ items, Text.Apart sep.toList item.toList) :
    splitList (Text.join sep items) sep = items := by
  by_cases hne : items = []
  · subst hne
    rfl
  · have hsplit := Text.splitOn_join_of_apart hsep hplain hne happart
    have hjoin : Text.join sep items ≠ "" := by
      intro heq
      have hempty : Text.splitOn sep "" = [""] := by
        rw [Text.splitOn, if_neg (by simp [hplain])]
        rfl
      rw [heq, hempty] at hsplit
      exact hitems hsplit.symm
    rw [splitList, if_neg hjoin, hsplit]

/-- The elements of a list without the separator in them are found again. -/
theorem splitList_joinList (hitems : items ≠ [""])
    (hfree : ∀ item ∈ items, listSeparator ∉ item.toList) :
    splitList (joinList items) ";" = items :=
  splitList_join (by decide) (by decide) hitems fun item hitem =>
    Text.apart_singleton (hfree item hitem)

theorem joinList_cons_cons (first next : String) (rest : List String) :
    joinList (first :: next :: rest) = first ++ ";" ++ joinList (next :: rest) := by
  apply String.toList_injective
  simp [joinList, Text.join, String.toList_intercalate, listSeparator]

/-- Elements with separators in them are found in pieces. -/
theorem splitList_joinList_eq_flatMap (hitems : items ≠ [""]) :
    splitList (joinList items) ";" = items.flatMap (Text.splitOn ";") := by
  have hsep : ";".toList = [';'] := rfl
  have hplain : Text.isHoldingPart ';' = false := by decide
  have hsplit (first : String) (rest : List String) :
      Text.splitOn ";" (joinList (first :: rest)) = (first :: rest).flatMap (Text.splitOn ";") := by
    induction rest generalizing first with
    | nil => simp [joinList, Text.join]
    | cons next rest ih =>
      rw [joinList_cons_cons, Text.splitOn_append hsep hplain, ih]
      rfl
  cases items with
  | nil => rfl
  | cons first rest =>
    have hne : joinList (first :: rest) ≠ "" := by
      cases rest with
      | nil =>
        intro heq
        have hfirst : first = "" := by simpa [joinList, Text.join] using heq
        exact hitems (hfirst ▸ rfl)
      | cons next rest =>
        rw [joinList_cons_cons]
        simp
    rw [splitList, if_neg hne, hsplit]

/-- The elements of a list are found again exactly if no separator is in them. -/
theorem splitList_joinList_eq_iff (hitems : items ≠ [""]) :
    splitList (joinList items) ";" = items ↔ ∀ item ∈ items, listSeparator ∉ item.toList := by
  refine ⟨fun heq item hitem => ?_, splitList_joinList hitems⟩
  rw [splitList_joinList_eq_flatMap hitems] at heq
  rw [← heq] at hitem
  obtain ⟨whole, -, hpiece⟩ := List.mem_flatMap.mp hitem
  exact Text.not_mem_of_mem_splitOn rfl (by decide) hpiece

/-- A text that can be an element of a list inside a list: it is not empty, has no separator in it,
and does not end like one that its first character would complete. -/
structure Nestable (s : String) : Prop where
  ne_empty : s ≠ ""
  noSeparator : listSeparator ∉ s.toList
  noNested : ¬ nestedSeparator.toList <:+: s.toList
  noBeginning : ¬ "@LSEP".toList <:+ s.toList

instance (s : String) : Decidable (Nestable s) :=
  decidable_of_iff (s ≠ "" ∧ listSeparator ∉ s.toList ∧ ¬ nestedSeparator.toList <:+: s.toList ∧
      ¬ "@LSEP".toList <:+ s.toList)
    ⟨fun ⟨hne, hmem, hin, hend⟩ => ⟨hne, hmem, hin, hend⟩,
      fun h => ⟨h.ne_empty, h.noSeparator, h.noNested, h.noBeginning⟩⟩

/-- The separator of lists inside lists overlaps itself in its first character alone, so an
occurrence of it that begins in an element needs all of the separator or all but its last character
there. -/
theorem Nestable.apart {s : String} (h : Nestable s) :
    Text.Apart nestedSeparator.toList s.toList := by
  intro tail htail hne hbegins
  by_cases hlong : nestedSeparator.toList.length ≤ tail.length
  · have hstart : nestedSeparator.toList <+: tail :=
      List.prefix_of_prefix_length_le hbegins (List.prefix_append _ _) hlong
    exact h.noNested (hstart.isInfix.trans htail.isInfix)
  · have htake : tail = nestedSeparator.toList.take tail.length := by
      refine List.prefix_iff_eq_take.mp ?_
      exact List.prefix_of_prefix_length_le (List.prefix_append _ _)
        hbegins (Nat.le_of_not_le hlong)
    generalize tail.length = n at htake hlong
    have hlt : n < 6 := Nat.lt_of_not_le hlong
    subst htake
    interval_cases n
    · exact hne rfl
    · exact absurd hbegins (by decide)
    · exact absurd hbegins (by decide)
    · exact absurd hbegins (by decide)
    · exact absurd hbegins (by decide)
    · exact h.noBeginning htail

/-- The elements of a list inside a list are found again. -/
theorem splitList_joinNested (h : ∀ item ∈ items, Nestable item) :
    splitList (joinNested items) nestedSeparator = items := by
  refine splitList_join (by decide) (by decide) ?_ fun item hitem => (h item hitem).apart
  rintro rfl
  exact (h "" (List.mem_singleton_self _)).ne_empty rfl

/-- A list inside a list is an element without the separator in it. -/
theorem listSeparator_not_mem_joinNested (h : ∀ item ∈ items, Nestable item) :
    listSeparator ∉ (joinNested items).toList := by
  intro hmem
  rw [joinNested, Text.join, String.toList_intercalate] at hmem
  rcases Text.mem_intercalate hmem with hmem | ⟨part, hpart, hmem⟩
  · exact absurd hmem (by decide)
  · obtain ⟨item, hitem, rfl⟩ := List.mem_map.mp hpart
    exact (h item hitem).noSeparator hmem

/-- A list inside a list is the empty text only if it is the empty list. -/
theorem joinNested_eq_empty_iff (h : ∀ item ∈ items, Nestable item) :
    joinNested items = "" ↔ items = [] := by
  constructor
  · intro heq
    rw [← splitList_joinNested h, heq]
    rfl
  · rintro rfl
    rfl

end Autogen
