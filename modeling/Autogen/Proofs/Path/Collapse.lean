import Autogen.Proofs.FileSystem.Readback

/-!
# Paths cleaned up by their texts

A text that was cleaned up is left alone when it is cleaned up again, and it makes no difference
whether a directory is cleaned up before a path is taken from it or together with the path.

## Main definitions

* `IsClean` — a path in which there is nothing left to clean up.
* `HasTwoSlashes` — a text that starts with exactly two slashes.

## Main statements

* `isClean_collapsePath` — what cleaning up leaves.
* `collapsePath_normalizes` — cleaning up twice, and before joining.
-/

namespace Autogen

open FileSystem

namespace Path

theorem named_join_ofString (base p : String) : ((ofString base).join (ofString p)).Named :=
  (named_ofString base).join (named_ofString p)

end Path

/-! ## Texts of paths -/

/-- A path in which there is nothing left to clean up: it starts at a root, and below that there are
names of entries alone, which are neither empty nor those of the same directory or the one above. -/
def IsClean (text : String) : Prop :=
  ∃ p : Path, p.isAbsolute = true ∧ (∀ name ∈ p.parts, FileSystem.IsEntryName name) ∧ p.text = text

theorem IsClean.ne_empty {text : String} (h : IsClean text) : text ≠ "" := by
  obtain ⟨p, habsolute, -, rfl⟩ := h
  intro hempty
  have hroot := FileSystem.startsAtRoot_text habsolute
  rw [hempty] at hroot
  cases hroot

/-- A text that starts with two slashes and no more. -/
def HasTwoSlashes (text : String) : Prop :=
  "//".toList <+: text.toList ∧ ¬"///".toList <+: text.toList

theorem hasTwoSlashes_iff {text : String} :
    HasTwoSlashes text ↔ (Path.ofString text).anchor = .doubleRoot := by
  have hchars (cs : List Char) :
      ((∃ rest, '/' :: '/' :: rest = cs) ∧ ¬∃ rest, '/' :: '/' :: '/' :: rest = cs) ↔
        Path.Anchor.ofChars cs = .doubleRoot := by
    fun_cases Path.Anchor.ofChars cs <;> grind
  exact hchars text.toList

section

variable [Environment]

theorem isClean_collapsePath (path base : String) : IsClean (collapsePath path base) :=
  ⟨_, Path.isAbsolute_collapse _, Path.names_collapse (Path.named_join_ofString base path), rfl⟩

/-- A path that was cleaned up is read back from its text. -/
theorem ofString_collapsePath (path base : String) :
    Path.ofString (collapsePath path base) =
      ((Path.ofString base).join (Path.ofString path)).collapse :=
  Path.ofString_text (Path.named_join_ofString base path).collapse

/-- A path that was cleaned up starts with two slashes if what it was taken from does. -/
theorem hasTwoSlashes_collapsePath (path base : String) :
    HasTwoSlashes (collapsePath path base) ↔
      if startsAtRoot path then HasTwoSlashes path else HasTwoSlashes base := by
  rw [hasTwoSlashes_iff, hasTwoSlashes_iff, hasTwoSlashes_iff, ofString_collapsePath,
    Path.anchor_collapse_eq_doubleRoot, Path.join, isAbsolute_ofString]
  split <;> rfl

/-- Cleaning up makes a path absolute and leaves nothing to clean up, and two slashes in front of it
are only those that were there. Whatever directory it is taken from then, cleaning it up once more
changes nothing; and a path may be taken from a directory that was cleaned up, or joined to the
directory before that. -/
theorem collapsePath_normalizes (path base dir : String) :
    IsClean (collapsePath path base) ∧
      (HasTwoSlashes (collapsePath path base) ↔
        if startsAtRoot path then HasTwoSlashes path else HasTwoSlashes base) ∧
      collapsePath (collapsePath path base) dir = collapsePath path base ∧
      collapsePath path (collapsePath base dir) =
        collapsePath ((Path.ofString base).join (Path.ofString path)).text dir := by
  refine ⟨isClean_collapsePath path base, hasTwoSlashes_collapsePath path base, ?_, ?_⟩
  · rw [collapsePath, ofString_collapsePath, Path.join, if_pos (Path.isAbsolute_collapse _),
      Path.collapse_collapse]
    rfl
  · rw [collapsePath, ofString_collapsePath, Path.collapse_join_collapse,
      Path.join_assoc, collapsePath, Path.ofString_text (Path.named_join_ofString base path)]

end

attribute [local instance] Environment.plain

/-- Parent names lead out of a path into the directory, and no further than to the root. -/
example : collapsePath "../../x" "//a/./b//c" = "//a/x" ∧
    collapsePath "../../../x" "a/b" = "/x" := by decide

end Autogen
