import Autogen.Path.Absolute
import Mathlib.Data.List.DropRight

/-!
# Absolute paths without parent names

Parent names remove the names before them, in one pass over a path with a stack. What a second pass
finds has no parent names in it, and it makes no difference whether a directory is cleaned up before
a path is taken from it or together with the path: what is on the stack after the directory is the
directory, cleaned up.

## Main statements

* `Path.collapseOnto_append` — one pass over two lists of names is one over each, with one stack.
* `Path.collapseOnto_replicate` — parent names take names off the stack.
* `Path.collapse_collapse`, `Path.collapse_join_collapse` — cleaning up twice, and before joining.
-/

namespace Autogen.Path

variable {p base : Path} {name : String} {above parts : List String}

/-! ## One pass over the names -/

theorem mem_collapseOnto (h : name ∈ collapseOnto above parts) :
    name ∈ above ∨ name ∈ parts ∧ name ≠ ".." := by
  induction parts generalizing above with
  | nil => exact .inl (List.mem_reverse.mp h)
  | cons part rest ih =>
    rw [collapseOnto] at h
    rcases ih h with hmem | ⟨hmem, hne⟩
    · split at hmem
      · exact .inl (List.mem_of_mem_tail hmem)
      · rename_i hpart
        rcases List.mem_cons.mp hmem with rfl | hmem
        · exact .inr ⟨List.mem_cons_self, by simpa using hpart⟩
        · exact .inl hmem
    · exact .inr ⟨List.mem_cons_of_mem _ hmem, hne⟩

/-- A stack is left by the names before, and the names behind go on from it. -/
theorem collapseOnto_append (above front back : List String) :
    collapseOnto above (front ++ back) = collapseOnto (collapseOnto above front).reverse back := by
  induction front generalizing above with
  | nil => rw [List.nil_append, collapseOnto, List.reverse_reverse]
  | cons part rest ih => exact ih _

theorem collapseOnto_of_not_mem (h : ".." ∉ parts) (above : List String) :
    collapseOnto above parts = above.reverse ++ parts := by
  induction parts generalizing above with
  | nil => simp [collapseOnto]
  | cons part rest ih =>
    rw [List.mem_cons, not_or] at h
    have hpart : (part == "..") = false := beq_eq_false_iff_ne.mpr (Ne.symm h.1)
    rw [collapseOnto, hpart, if_neg Bool.false_ne_true, ih h.2]
    simp

/-- Parent names take names off the stack. At the root there is nothing to take. -/
theorem collapseOnto_replicate (above : List String) (levels : Nat) (parts : List String) :
    collapseOnto above (List.replicate levels ".." ++ parts) =
      collapseOnto (above.drop levels) parts := by
  induction levels generalizing above with
  | zero => rfl
  | succ levels ih =>
    rw [List.replicate_succ, List.cons_append, collapseOnto, if_pos (beq_self_eq_true _), ih,
      ← List.drop_one, List.drop_drop, Nat.add_comm]

theorem not_mem_collapseOnto (h : ".." ∉ above) : ".." ∉ collapseOnto above parts := by
  intro hmem
  rcases mem_collapseOnto hmem with habove | ⟨-, hne⟩
  · exact h habove
  · exact hne rfl

/-- What a second pass finds has no parent names in it. -/
theorem collapseOnto_collapseOnto (parts : List String) :
    collapseOnto [] (collapseOnto [] parts) = collapseOnto [] parts :=
  collapseOnto_of_not_mem (not_mem_collapseOnto List.not_mem_nil) []

theorem join_assoc (a b c : Path) : (a.join b).join c = a.join (b.join c) := by
  unfold join
  grind [isAbsolute]

/-! ## Absolute paths -/

variable [Environment]

theorem absolute_of_isAbsolute (h : p.isAbsolute = true) : p.absolute = p := by
  rw [absolute, join, if_pos h]

theorem isAbsolute_collapse (p : Path) : p.collapse.isAbsolute = true := by
  have habsolute : p.absolute.isAbsolute = true := by
    rw [absolute, join]
    split
    · assumption
    · rfl
  exact habsolute

theorem collapse_of_isAbsolute (h : p.isAbsolute = true) :
    p.collapse = ⟨p.anchor, collapseOnto [] p.parts⟩ := by
  rw [collapse, absolute_of_isAbsolute h]

/-- A path that was cleaned up is left alone. -/
theorem collapse_of_not_mem (h : p.isAbsolute = true) (hup : ".." ∉ p.parts) : p.collapse = p := by
  rw [collapse_of_isAbsolute h, collapseOnto_of_not_mem hup]
  rfl

theorem not_mem_collapse (p : Path) : ".." ∉ p.collapse.parts :=
  not_mem_collapseOnto List.not_mem_nil

theorem collapse_collapse (p : Path) : p.collapse.collapse = p.collapse :=
  collapse_of_not_mem (isAbsolute_collapse p) (not_mem_collapse p)

/-- A directory may be cleaned up before a path is taken from it. -/
theorem collapse_join_collapse (base p : Path) :
    (base.collapse.join p).collapse = (base.join p).collapse := by
  by_cases hp : p.isAbsolute = true
  · simp only [join, hp, if_true]
  have hjoin (q : Path) : q.join p = ⟨q.anchor, q.parts ++ p.parts⟩ := if_neg hp
  have habsolute : (base.join p).absolute =
      ⟨base.absolute.anchor, base.absolute.parts ++ p.parts⟩ := by
    rw [← hjoin]
    exact (join_assoc _ _ _).symm
  have hkept : isAbsolute ⟨base.collapse.anchor, base.collapse.parts ++ p.parts⟩ = true :=
    isAbsolute_collapse base
  have hstack : collapseOnto [] (base.collapse.parts ++ p.parts) =
      collapseOnto [] (base.absolute.parts ++ p.parts) := by
    rw [collapseOnto_append, collapse, collapseOnto_collapseOnto, ← collapseOnto_append]
  calc (base.collapse.join p).collapse
      = ⟨base.collapse.anchor, collapseOnto [] (base.collapse.parts ++ p.parts)⟩ := by
        rw [hjoin, collapse_of_isAbsolute hkept]
    _ = (base.join p).collapse := by
        rw [hstack, collapse, collapse, habsolute]

theorem anchor_collapse_eq_doubleRoot (p : Path) :
    p.collapse.anchor = .doubleRoot ↔ p.anchor = .doubleRoot := by
  obtain ⟨anchor, parts⟩ := p
  cases anchor <;> simp [collapse, absolute, join, isAbsolute, workingDirectory]

end Autogen.Path
