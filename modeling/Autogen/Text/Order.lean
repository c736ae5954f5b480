import Autogen.Text.Surrogate

/-!
# Order of texts

Texts are ordered by the code points that they hold. Texts that hold the same ones are told apart by
their characters, so that no two texts share a place.

## Main definitions

* `Text.precedes` — the order.
* `Text.sorted` — texts in increasing order.
* `Text.sortedDistinct` — the distinct ones among them in increasing order.

## Main statements

* `precedes_trans`, `precedes_total`, `precedes_antisymm` — the order is linear.
-/

namespace Autogen.Text

/-- Whether a text comes before another one or is the same. -/
def precedes (a b : String) : Bool :=
  codePoints a < codePoints b || (codePoints a == codePoints b && a ≤ b)

/-- Texts in increasing order. -/
def sorted (items : List String) : List String :=
  items.mergeSort precedes

/-- The distinct texts of a list in increasing order. -/
def sortedDistinct (items : List String) : List String :=
  sorted items.eraseDups

/-- Texts are compared by their code points first. -/
theorem precedes_iff {a b : String} :
    precedes a b = true ↔ codePoints a < codePoints b ∨ (codePoints a = codePoints b ∧ a ≤ b) := by
  simp [precedes]

/-- The order is transitive. -/
theorem precedes_trans {a b c : String} (hab : precedes a b = true) (hbc : precedes b c = true) :
    precedes a c = true := by
  rw [precedes_iff] at *
  rcases hab with hab | ⟨hab, hle⟩
  · rcases hbc with hbc | ⟨hbc, -⟩
    · exact .inl (List.lt_trans hab hbc)
    · exact .inl (hbc ▸ hab)
  · rcases hbc with hbc | ⟨hbc, hle'⟩
    · exact .inl (hab ▸ hbc)
    · exact .inr ⟨hab.trans hbc, String.le_trans hle hle'⟩

/-- Of two texts one comes first. -/
theorem precedes_total (a b : String) : (precedes a b || precedes b a) = true := by
  rw [Bool.or_eq_true, precedes_iff, precedes_iff]
  by_cases hab : codePoints a < codePoints b
  · exact .inl (.inl hab)
  · by_cases hba : codePoints b < codePoints a
    · exact .inr (.inl hba)
    · have h : codePoints a = codePoints b := List.le_antisymm hba hab
      exact (String.le_total a b).imp (.inr ⟨h, ·⟩) (.inr ⟨h.symm, ·⟩)

/-- Only the same text comes both before and after a text. -/
theorem precedes_antisymm {a b : String} (hab : precedes a b = true) (hba : precedes b a = true) :
    a = b := by
  rw [precedes_iff] at *
  rcases hab with hab | ⟨hab, hle⟩
  · rcases hba with hba | ⟨hba, -⟩
    · exact (List.lt_irrefl _ (List.lt_trans hab hba)).elim
    · exact (List.lt_irrefl _ (hba ▸ hab)).elim
  · rcases hba with hba | ⟨-, hle'⟩
    · exact (List.lt_irrefl _ (hab ▸ hba)).elim
    · exact String.le_antisymm hle hle'

end Autogen.Text
