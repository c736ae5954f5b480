import Autogen.Config.Coerce
import Autogen.ConfigDiff
import Autogen.Proofs.Descriptor.Lists
import Mathlib.Data.List.Infix

/-!
# Lists written as one text

A separator behind a backslash belongs to an element, and backslashes have no other meaning: they do
not escape one another. So an element that ends with a backslash takes the separator behind it. What
is read from a list text is what was written into it exactly if this happens nowhere.

## Main definitions

* `EndsOpen` — a text that takes a separator behind it.
* `spellItem`, `spellList` — elements and lists as list texts spell them.

## Main statements

* `listPieces_append` — a text is cut at a separator that the text in front of it does not take.
* `backslashes_expandList_append`, `backslashes_expandList_spellList` — what is lost where a
  separator is taken.
* `expandList_spellList_iff` — the lists that are read as they were written.
-/

namespace Autogen

/-! ## Elements that are read -/

theorem not_mem_expandList (text : String) : "" ∉ expandList text := by
  simp only [expandList, List.mem_map, List.mem_filter, not_exists, not_and]
  rintro piece ⟨-, hpiece⟩ hempty
  simp [String.ofList_eq_empty_iff.mp hempty] at hpiece

/-- A piece of a list text has a separator in it exactly if the text has one behind a backslash. -/
theorem separator_mem_listPieces (cs : List Char) :
    (∃ piece ∈ (listPieces cs).1 :: (listPieces cs).2, listSeparator ∈ piece) ↔
      ['\\', listSeparator] <:+: cs := by
  induction cs using listPieces.induct with
  | case1 => simp [listPieces]
  | case2 rest first later hrest ih =>
    have hprefix : ['\\', listSeparator] <+: '\\' :: ';' :: rest := ⟨rest, rfl⟩
    exact iff_of_true ⟨_, List.mem_cons_self, List.mem_cons_self⟩ hprefix.isInfix
  | case3 rest first later hrest ih =>
    rw [List.infix_cons_iff, ← ih]
    simp [listPieces, listSeparator]
  | case4 c rest hescaped hother first later hrest ih =>
    have hprefix : ¬ ['\\', listSeparator] <+: c :: rest := by
      rintro ⟨tail, heq⟩
      obtain ⟨rfl, rfl⟩ := List.cons.inj heq
      exact hescaped tail rfl rfl
    rw [List.infix_cons_iff, ← ih, or_iff_right hprefix]
    have hne : ';' ≠ c := fun heq => hother heq.symm
    simp [listPieces, listSeparator, hne]

/-- No element of a list text has a separator in it exactly if the text has none behind a
backslash. -/
theorem separator_not_mem_expandList {text : String} :
    (∀ item ∈ expandList text, listSeparator ∉ item.toList) ↔
    ¬ ['\\', listSeparator] <:+: text.toList := by
  rw [← separator_mem_listPieces, not_exists]
  simp only [not_and, expandList, List.forall_mem_map, String.toList_ofList,
    List.mem_filter, and_imp]
  refine forall₂_congr fun piece _ => ⟨fun h hmem => ?_, fun h _ => h⟩
  exact h (by cases piece with | nil => cases hmem | cons => rfl) hmem

/-! ## Cutting at a separator -/

/-- The last of some characters is a backslash. -/
def OpenEnd (cs : List Char) : Prop :=
  cs.getLast? = some '\\'

instance (cs : List Char) : Decidable (OpenEnd cs) :=
  inferInstanceAs (Decidable (_ = _))

/-- The pieces of a list text, the one in progress with the others. -/
def allPieces (cs : List Char) : List (List Char) :=
  (listPieces cs).1 :: (listPieces cs).2

theorem allPieces_escaped (cs : List Char) :
    allPieces ('\\' :: ';' :: cs) = (allPieces cs).modifyHead (';' :: ·) := by
  simp [allPieces, listPieces]

theorem allPieces_separator (cs : List Char) : allPieces (';' :: cs) = [] :: allPieces cs := by
  simp [allPieces, listPieces]

theorem allPieces_cons {c : Char} {cs : List Char} (hc : c ≠ ';')
    (hnext : c = '\\' → cs.head? ≠ some ';') :
    allPieces (c :: cs) = (allPieces cs).modifyHead (c :: ·) := by
  unfold allPieces
  rw [listPieces]
  · rfl
  · rintro rest rfl rfl
    exact hnext rfl rfl
  · exact hc

theorem flatten_modifyHead_allPieces (c : Char) (cs : List Char) :
    ((allPieces cs).modifyHead (c :: ·)).flatten = c :: (allPieces cs).flatten := by
  simp [allPieces]

/-- A text is cut at a separator that the text in front of it does not take. -/
theorem allPieces_append {cs : List Char} (h : ¬OpenEnd cs) (ds : List Char) :
    allPieces (cs ++ ';' :: ds) = allPieces cs ++ allPieces ds := by
  induction cs using listPieces.induct with
  | case1 => exact allPieces_separator ds
  | case2 rest first later hrest ih =>
    have hrest : ¬OpenEnd rest := by cases rest <;> simp_all [OpenEnd]
    simp only [List.cons_append, allPieces_escaped, ih hrest]
    rfl
  | case3 rest first later hrest ih =>
    have hrest : ¬OpenEnd rest := by cases rest <;> simp_all [OpenEnd]
    simp only [List.cons_append, allPieces_separator, ih hrest]
  | case4 c rest hescaped hother first later hrest ih =>
    have hrest : ¬OpenEnd rest := by cases rest <;> simp_all [OpenEnd]
    -- Behind the last character the separator follows, but that one is no backslash.
    have hnext : c = '\\' → rest.head? ≠ some ';' ∧ (rest ++ ';' :: ds).head? ≠ some ';' := by
      cases rest <;> simp_all [OpenEnd]
    rw [List.cons_append, allPieces_cons hother fun hc => (hnext hc).2, ih hrest,
      allPieces_cons hother fun hc => (hnext hc).1]
    rfl

/-- What is read from two texts is read from both together unless the second one begins with a
separator. -/
theorem flatten_allPieces_append (cs : List Char) {ds : List Char} (h : ds.head? ≠ some ';') :
    (allPieces (cs ++ ds)).flatten = (allPieces cs).flatten ++ (allPieces ds).flatten := by
  induction cs using listPieces.induct with
  | case1 => rfl
  | case2 rest first later hrest ih =>
    simp only [List.cons_append, allPieces_escaped, flatten_modifyHead_allPieces, ih]
  | case3 rest first later hrest ih =>
    simp only [List.cons_append, allPieces_separator, List.flatten_cons, List.nil_append, ih]
  | case4 c rest hescaped hother first later hrest ih =>
    have hnext : c = '\\' → rest.head? ≠ some ';' ∧ (rest ++ ds).head? ≠ some ';' := by
      cases rest <;> simp_all
    rw [List.cons_append, allPieces_cons hother fun hc => (hnext hc).2,
      allPieces_cons hother fun hc => (hnext hc).1, flatten_modifyHead_allPieces,
      flatten_modifyHead_allPieces, ih, List.cons_append]

/-- The separator that a text takes replaces the backslash at its end. -/
theorem count_allPieces_append {cs : List Char} (h : OpenEnd cs) (ds : List Char) :
    (allPieces (cs ++ ';' :: ds)).flatten.count '\\' + 1 =
      (allPieces cs).flatten.count '\\' + (allPieces ds).flatten.count '\\' := by
  obtain ⟨front, rfl⟩ := List.getLast?_eq_some_iff.mp h
  have htaken : (allPieces (front ++ ['\\'] ++ ';' :: ds)).flatten =
      (allPieces front).flatten ++ ';' :: (allPieces ds).flatten := by
    rw [List.append_assoc, List.singleton_append, flatten_allPieces_append front (by simp),
      allPieces_escaped, flatten_modifyHead_allPieces]
  have hkept : (allPieces (front ++ ['\\'])).flatten = (allPieces front).flatten ++ ['\\'] :=
    flatten_allPieces_append front (by simp)
  rw [htaken, hkept, List.count_append, List.count_append, List.count_cons_of_ne (by decide),
    List.count_singleton_self]
  omega

/-! ## Lists that are read as they were written -/

/-- A text whose last character is a backslash. It takes a separator that is put behind it. -/
def EndsOpen (text : String) : Prop :=
  OpenEnd text.toList

instance (text : String) : Decidable (EndsOpen text) :=
  inferInstanceAs (Decidable (OpenEnd _))

/-- The number of backslashes in the elements of a list. -/
def backslashes (items : List String) : Nat :=
  (items.map fun item => item.toList.count '\\').sum

theorem expandList_eq (text : String) :
    expandList text = ((allPieces text.toList).filter fun piece => !piece.isEmpty).map
      String.ofList := rfl

theorem backslashes_expandList (text : String) :
    backslashes (expandList text) = (allPieces text.toList).flatten.count '\\' := by
  rw [← List.flatten_filter_not_isEmpty, List.count_flatten, expandList_eq,
    backslashes, List.map_map]
  simp [Function.comp_def]

theorem toList_append_separator (s t : String) :
    (s ++ ";" ++ t).toList = s.toList ++ ';' :: t.toList := by
  simp

/-- What is read from two texts with a separator between them is read from each of them, unless the
first one takes the separator. -/
theorem expandList_append {s : String} (h : ¬EndsOpen s) (t : String) :
    expandList (s ++ ";" ++ t) = expandList s ++ expandList t := by
  simp only [expandList_eq, toList_append_separator, allPieces_append h,
    List.filter_append, List.map_append]

/-- A backslash is lost where a separator is taken. -/
theorem backslashes_expandList_append (s t : String) :
    backslashes (expandList (s ++ ";" ++ t)) + (if EndsOpen s then 1 else 0) =
      backslashes (expandList s) + backslashes (expandList t) := by
  by_cases h : EndsOpen s
  · rw [if_pos h]
    simp only [backslashes_expandList, toList_append_separator]
    exact count_allPieces_append h t.toList
  · rw [if_neg h, expandList_append h]
    simp [backslashes]

theorem expandList_append_iff {s t : String} :
    expandList (s ++ ";" ++ t) = expandList s ++ expandList t ↔ ¬EndsOpen s := by
  refine ⟨fun heq hopen => ?_, fun h => expandList_append h t⟩
  have hlost := backslashes_expandList_append s t
  rw [if_pos hopen, heq] at hlost
  simp [backslashes] at hlost

/-- A character replaced by others wherever it occurs. -/
def replaceChar (c : Char) (new cs : List Char) : List Char :=
  cs.flatMap fun d => if d = c then new else [d]

theorem replaceChar_append (c : Char) (new cs ds : List Char) :
    replaceChar c new (cs ++ ds) = replaceChar c new cs ++ replaceChar c new ds :=
  List.flatMap_append

/-- Characters with a backslash put in front of every separator. -/
def escapeSeparators (cs : List Char) : List Char :=
  replaceChar listSeparator ['\\', listSeparator] cs

theorem escapeSeparators_separator (cs : List Char) :
    escapeSeparators (';' :: cs) = '\\' :: ';' :: escapeSeparators cs := by
  simp [escapeSeparators, replaceChar, listSeparator]

theorem escapeSeparators_cons {c : Char} (hc : c ≠ ';') (cs : List Char) :
    escapeSeparators (c :: cs) = c :: escapeSeparators cs := by
  simp [escapeSeparators, replaceChar, listSeparator, hc]

theorem head?_escapeSeparators (cs : List Char) : (escapeSeparators cs).head? ≠ some ';' := by
  cases cs with
  | nil => simp [escapeSeparators, replaceChar]
  | cons c cs =>
    by_cases hc : c = ';'
    · simp [hc, escapeSeparators_separator]
    · simp [hc, escapeSeparators_cons]

/-- What has backslashes in front of its separators is not cut, and the backslashes are gone. -/
theorem allPieces_escapeSeparators (cs : List Char) : allPieces (escapeSeparators cs) = [cs] := by
  induction cs with
  | nil => rfl
  | cons c cs ih =>
    by_cases hc : c = ';'
    · rw [hc, escapeSeparators_separator, allPieces_escaped, ih]
      rfl
    · rw [escapeSeparators_cons hc, allPieces_cons hc fun _ => head?_escapeSeparators cs, ih]
      rfl

theorem openEnd_escapeSeparators (cs : List Char) : OpenEnd (escapeSeparators cs) ↔ OpenEnd cs := by
  rcases List.eq_nil_or_concat cs with rfl | ⟨front, last, rfl⟩
  · rfl
  · rw [List.concat_eq_append, escapeSeparators, replaceChar_append, OpenEnd, OpenEnd]
    by_cases hlast : last = listSeparator <;> simp [replaceChar, hlast]

/-- An element as list texts spell it: with a backslash in front of every separator. -/
def spellItem (item : String) : String :=
  .ofList (escapeSeparators item.toList)

/-- A list as one text: its elements as list texts spell them, with separators between them. -/
def spellList (items : List String) : String :=
  joinList (items.map spellItem)

theorem endsOpen_spellItem (item : String) : EndsOpen (spellItem item) ↔ EndsOpen item := by
  rw [EndsOpen, spellItem, String.toList_ofList]
  exact openEnd_escapeSeparators item.toList

/-- An element is read as it was written. -/
theorem expandList_spellItem {item : String} (h : item ≠ "") :
    expandList (spellItem item) = [item] := by
  rw [expandList_eq, spellItem, String.toList_ofList, allPieces_escapeSeparators]
  simp [h]

theorem backslashes_expandList_spellItem (item : String) :
    backslashes (expandList (spellItem item)) = item.toList.count '\\' := by
  rw [backslashes_expandList, spellItem, String.toList_ofList, allPieces_escapeSeparators,
    List.flatten_singleton]

theorem spellList_singleton (item : String) : spellList [item] = spellItem item :=
  String.toList_injective (by simp [spellList, joinList, Text.join])

theorem spellList_cons_cons (first next : String) (rest : List String) :
    spellList (first :: next :: rest) = spellItem first ++ ";" ++ spellList (next :: rest) :=
  joinList_cons_cons _ _ _

/-- Elements of which only the last one may end with a backslash are read as they were written. -/
theorem expandList_spellList {items : List String} (hfilled : "" ∉ items)
    (hclosed : ∀ item ∈ items.dropLast, ¬EndsOpen item) : expandList (spellList items) = items := by
  induction items with
  | nil => rfl
  | cons first rest ih =>
    rw [List.mem_cons, not_or] at hfilled
    obtain ⟨hfirst, hrest⟩ := hfilled
    cases rest with
    | nil => rw [spellList_singleton, expandList_spellItem (Ne.symm hfirst)]
    | cons next rest =>
      rw [List.dropLast_cons_cons, List.forall_mem_cons] at hclosed
      have hend : ¬EndsOpen (spellItem first) := by
        rw [endsOpen_spellItem]
        exact hclosed.1
      rw [spellList_cons_cons, expandList_append hend, expandList_spellItem (Ne.symm hfirst),
        ih hrest hclosed.2]
      rfl

/-- As many backslashes are lost as there are elements that take the separators behind them. -/
theorem backslashes_expandList_spellList (items : List String) :
    backslashes (expandList (spellList items)) + (items.dropLast.filter (EndsOpen ·)).length =
      backslashes items := by
  induction items with
  | nil => rfl
  | cons first rest ih =>
    cases rest with
    | nil =>
      rw [spellList_singleton, backslashes_expandList_spellItem]
      simp [backslashes]
    | cons next rest =>
      have hlost := backslashes_expandList_append (spellItem first) (spellList (next :: rest))
      have hsum :
          backslashes (first :: next :: rest) =
            first.toList.count '\\' + backslashes (next :: rest) :=
        List.sum_cons
      rw [← spellList_cons_cons, backslashes_expandList_spellItem] at hlost
      simp only [endsOpen_spellItem] at hlost
      rw [List.dropLast_cons_cons, List.filter_cons, hsum]
      by_cases hopen : EndsOpen first
      · simp only [hopen, if_true, decide_true, List.length_cons] at hlost ⊢
        omega
      · simp only [hopen, if_false, decide_false, Bool.false_eq_true] at hlost ⊢
        omega

theorem expandList_spellList_iff {items : List String} :
    expandList (spellList items) = items ↔ "" ∉ items ∧
    ∀ item ∈ items.dropLast, ¬EndsOpen item := by
  constructor
  · intro heq
    constructor
    · rw [← heq]
      exact not_mem_expandList _
    · intro item hitem hopen
      have hlost := backslashes_expandList_spellList items
      have hmem : item ∈ items.dropLast.filter (EndsOpen ·) :=
        List.mem_filter.mpr ⟨hitem, by simpa using hopen⟩
      have hpos := List.length_pos_of_mem hmem
      rw [heq] at hlost
      omega
  · rintro ⟨hfilled, hclosed⟩
    exact expandList_spellList hfilled hclosed

/-- A list text is read element by element: what is written is what is read, exactly if no element
is empty and none but the last ends with a backslash; nothing empty is read; and texts with a
separator between them are read one after the other, exactly if the first one does not end with a
backslash. -/
theorem expandList_reads :
    (∀ items : List String,
      expandList (spellList items) = items ↔ "" ∉ items ∧ ∀ item ∈ items.dropLast, ¬EndsOpen item) ∧
    (∀ text : String, "" ∉ expandList text) ∧
    ∀ s t : String, expandList (s ++ ";" ++ t) = expandList s ++ expandList t ↔ ¬EndsOpen s :=
  ⟨fun _ => expandList_spellList_iff, not_mem_expandList, fun _ _ => expandList_append_iff⟩

/-- Separators and backslashes at the ends of elements, and at the end of the text. -/
theorem expandList_reads_borders :
    spellList ["a;b", "\\;", ";", "c\\"] = "a\\;b;\\\\;;\\;;c\\" ∧
      expandList "a\\;b;\\\\;;\\;;c\\" = ["a;b", "\\;", ";", "c\\"] ∧
      expandList (spellList ["a\\", "b"]) ≠ ["a\\", "b"] ∧
      "" ∉ expandList ";;a;" ∧
      expandList ("a\\;" ++ ";" ++ ";b\\") = expandList "a\\;" ++ expandList ";b\\" := by
  obtain ⟨hwritten, hfilled, happend⟩ := expandList_reads
  have hspelled : spellList ["a;b", "\\;", ";", "c\\"] = "a\\;b;\\\\;;\\;;c\\" := by decide
  refine ⟨hspelled, ?_, ?_, hfilled _, (happend _ _).mpr (by decide)⟩
  · rw [← hspelled]
    exact (hwritten _).mpr ⟨by decide, by decide⟩
  · intro heq
    exact ((hwritten _).mp heq).2 "a\\" (by decide) (by decide)

end Autogen
