import Autogen.Text.Split
import Mathlib.Data.List.Basic

/-!
# Splitting

What is put together with a separator is split into its parts again, if no occurrence of the
separator begins in a part. A separator of one character cuts a text in the same way as its list of
characters is cut.

## Main definitions

* `Apart` — no occurrence of a separator begins in a part.

## Main statements

* `splitOn_join_of_apart` — parts are found again when they are put together with a separator.
* `splitOn_join` — the same for a separator of one character.
* `splitOn_eq` — the pieces of a text as the pieces of its characters.
* `not_mem_of_mem_splitOn` — the pieces are free of the separator.
-/

namespace Autogen.Text

/-- What is in a list put together of parts is in the separator or in a part. -/
theorem mem_intercalate {α : Type} {sep : List α} {a : α} {parts : List (List α)}
    (h : a ∈ sep.intercalate parts) : a ∈ sep ∨ ∃ part ∈ parts, a ∈ part := by
  induction parts with
  | nil => simp at h
  | cons part rest ih =>
    cases rest with
    | nil => exact .inr ⟨part, List.mem_cons_self, by simpa using h⟩
    | cons next rest =>
      rw [List.intercalate_cons_cons, List.mem_append, List.mem_append] at h
      rcases h with (h | h) | h
      · exact .inr ⟨part, List.mem_cons_self, h⟩
      · exact .inl h
      · exact (ih h).imp_right fun ⟨p, hp, ha⟩ => ⟨p, List.mem_cons_of_mem _ hp, ha⟩

/-! ## Separators of any length -/

section Separator

variable {α : Type} [BEq α] {sep piece rest : List α}

/-- No occurrence of a separator begins in a piece that the separator follows. -/
def Apart (sep piece : List α) : Prop :=
  ∀ tail, tail <:+ piece → tail ≠ [] → ¬ sep <+: tail ++ sep

omit [BEq α] in
theorem Apart.of_cons {a : α} (h : Apart sep (a :: piece)) : Apart sep piece :=
  fun tail htail => h tail (htail.trans (List.suffix_cons a piece))

omit [BEq α] in
theorem apart_singleton {a : α} (h : a ∉ piece) : Apart [a] piece := by
  intro tail htail hne hbegins
  obtain ⟨b, tail, rfl⟩ := List.exists_cons_of_ne_nil hne
  rw [List.cons_append, List.cons_prefix_cons] at hbegins
  exact h (htail.subset (hbegins.1 ▸ List.mem_cons_self))

/-- What is left of an occurrence that has begun is passed over. -/
theorem pieces_append (skipped rest : List α) :
    pieces sep skipped.length (skipped ++ rest) = pieces sep 0 rest := by
  induction skipped with
  | nil => rfl
  | cons a skipped ih => exact ih

variable [LawfulBEq α]

/-- A piece apart from the separator ends where the separator follows it. -/
theorem pieces_append_sep (hsep : sep ≠ []) (h : Apart sep piece) :
    pieces sep 0 (piece ++ (sep ++ rest)) =
      (piece, (pieces sep 0 rest).1 :: (pieces sep 0 rest).2) := by
  induction piece with
  | nil =>
    obtain ⟨a, others, rfl⟩ := List.exists_cons_of_ne_nil hsep
    have hbegins : (a :: others).isPrefixOf (a :: (others ++ rest)) = true := by
      rw [List.isPrefixOf_iff_prefix, ← List.cons_append]
      exact List.prefix_append _ _
    rw [List.nil_append, List.cons_append, pieces, if_pos hbegins,
      List.length_cons, Nat.add_sub_cancel, pieces_append]
  | cons a piece ih =>
    have hout : ¬ sep.isPrefixOf (a :: (piece ++ (sep ++ rest))) = true := by
      rw [List.isPrefixOf_iff_prefix, ← List.cons_append, ← List.append_assoc]
      intro hbegins
      refine h (a :: piece) List.suffix_rfl (List.cons_ne_nil _ _) ?_
      exact List.prefix_of_prefix_length_le hbegins (List.prefix_append _ _) (by simp; omega)
    rw [List.cons_append, pieces, if_neg hout, ih h.of_cons]

/-- A piece apart from the separator is not cut. -/
theorem pieces_of_apart (h : Apart sep piece) : pieces sep 0 piece = (piece, []) := by
  induction piece with
  | nil => rfl
  | cons a piece ih =>
    have hout : ¬ sep.isPrefixOf (a :: piece) = true := by
      rw [List.isPrefixOf_iff_prefix]
      exact fun hbegins =>
        h (a :: piece) List.suffix_rfl (List.cons_ne_nil _ _)
          (hbegins.trans (List.prefix_append _ _))
    rw [pieces, if_neg hout, ih h.of_cons]

/-- Pieces apart from the separator are found again when they are put together with it. -/
theorem pieces_intercalate (hsep : sep ≠ []) {first : List α} {later : List (List α)}
    (h : ∀ part ∈ first :: later, Apart sep part) :
    pieces sep 0 (sep.intercalate (first :: later)) = (first, later) := by
  induction later generalizing first with
  | nil =>
    rw [List.intercalate_singleton]
    exact pieces_of_apart (h first List.mem_cons_self)
  | cons next later ih =>
    rw [List.forall_mem_cons] at h
    rw [List.intercalate_cons_cons, List.append_assoc, pieces_append_sep hsep h.1, ih h.2]

/-- Texts apart from a separator are found again when they are put together with it. -/
theorem splitOn_join_of_apart {sep : String} {parts : List String} (hsep : sep.toList ≠ [])
    (hplain : sep.toList.any isHoldingPart = false) (hne : parts ≠ [])
    (hparts : ∀ part ∈ parts, Apart sep.toList part.toList) :
    splitOn sep (join sep parts) = parts := by
  obtain ⟨first, later, rfl⟩ := List.exists_cons_of_ne_nil hne
  have hpieces : pieces sep.toList 0 (join sep (first :: later)).toList =
      (first.toList, later.map String.toList) := by
    rw [join, String.toList_intercalate]
    exact pieces_intercalate hsep (List.forall_mem_map.mpr hparts)
  rw [splitOn, if_neg (by simp [hplain]), hpieces]
  simp [Function.comp_def]

end Separator

/-! ## Separators of one character -/

theorem pieces_singleton (c : Char) (cs : List Char) :
    (pieces [c] 0 cs).1 :: (pieces [c] 0 cs).2 = cs.splitOn c := by
  induction cs with
  | nil => rfl
  | cons d cs ih =>
    have hprefix : [c].isPrefixOf (d :: cs) = (d == c) := by
      simp [List.isPrefixOf, Bool.beq_comm]
    rw [List.splitOn_cons_eq_if_modifyHead, ← ih, pieces, hprefix]
    split <;> rfl

variable {c : Char} {sep : String}

/-- The pieces of a text are the pieces of its characters. -/
theorem splitOn_eq (hsep : sep.toList = [c]) (hc : isHoldingPart c = false) (s : String) :
    splitOn sep s = (s.toList.splitOn c).map String.ofList := by
  rw [splitOn, hsep, if_neg (by simp [hc]), ← pieces_singleton]

theorem splitOn_append (hsep : sep.toList = [c]) (hc : isHoldingPart c = false) (s t : String) :
    splitOn sep (s ++ sep ++ t) = splitOn sep s ++ splitOn sep t := by
  rw [splitOn_eq hsep hc, splitOn_eq hsep hc, splitOn_eq hsep hc, String.toList_append,
    String.toList_append, hsep, List.append_assoc, List.singleton_append,
    List.splitOn_append_cons_self, List.map_append]

theorem splitOn_of_not_mem (hsep : sep.toList = [c]) (hc : isHoldingPart c = false) {s : String}
    (hs : c ∉ s.toList) : splitOn sep s = [s] := by
  rw [splitOn_eq hsep hc, List.splitOn_eq_singleton hs, List.map_singleton, String.ofList_toList]

/-- The pieces are free of the separator. -/
theorem not_mem_of_mem_splitOn (hsep : sep.toList = [c]) (hc : isHoldingPart c = false)
    {s p : String} (hp : p ∈ splitOn sep s) : c ∉ p.toList := by
  have hlist (cs : List Char) : ∀ piece ∈ cs.splitOn c, c ∉ piece := by
    induction cs with
    | nil => simp
    | cons d cs ih =>
      rw [List.splitOn_cons_eq_if_modifyHead]
      split
      · simpa using ih
      · rename_i hne
        intro piece hpiece
        cases hrest : cs.splitOn c with
        | nil =>
          rw [hrest] at hpiece
          cases hpiece
        | cons first later =>
          rw [hrest] at hpiece ih
          rcases List.mem_cons.mp hpiece with rfl | hpiece
          · intro hmem
            rcases List.mem_cons.mp hmem with rfl | hmem
            · simp at hne
            · exact ih first List.mem_cons_self hmem
          · exact ih piece (List.mem_cons_of_mem _ hpiece)
  rw [splitOn_eq hsep hc] at hp
  obtain ⟨piece, hpiece, rfl⟩ := List.mem_map.mp hp
  simpa using hlist s.toList piece hpiece

/-- What is put together with a separator is split into its parts again. -/
theorem splitOn_join (hsep : sep.toList = [c]) (hc : isHoldingPart c = false) {parts : List String}
    (hne : parts ≠ []) (hparts : ∀ p ∈ parts, c ∉ p.toList) :
    splitOn sep (join sep parts) = parts := by
  refine splitOn_join_of_apart (by simp [hsep]) (by simp [hsep, hc]) hne fun p hp => ?_
  rw [hsep]
  exact apart_singleton (hparts p hp)

end Autogen.Text
