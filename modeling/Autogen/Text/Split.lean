import Autogen.Text.Surrogate

/-!
# Splitting and joining

Cutting a text at every occurrence of a separator.

## Main definitions

* `Text.pieces` — the pieces of a list between the occurrences of a separator.
* `Text.splitOn` — the pieces of a text.
* `Text.join` — texts put together with a separator between them.
-/

namespace Autogen.Text

/-- The pieces of a list between the occurrences of `sep`, read from the left: the piece in progress
and the pieces after it. The number counts the elements still to be passed over because they belong
to an occurrence that has begun. -/
def pieces {α : Type} [BEq α] (sep : List α) : Nat → List α → List α × List (List α)
  | _, [] => ([], [])
  | skip + 1, _ :: cs => pieces sep skip cs
  | 0, c :: cs =>
    if sep.isPrefixOf (c :: cs) then
      let (first, later) := pieces sep (sep.length - 1) cs
      ([], first :: later)
    else
      let (first, later) := pieces sep 0 cs
      (c :: first, later)

/-- Whether a character can be part of what holds a half. -/
def isHoldingPart (c : Char) : Bool :=
  halfDistance ≤ c.toNat

/-- The pieces of a text between the occurrences of a separator that is not empty. A separator with
characters that can be parts of held halves is looked for among the code points, because it can seem
to begin in the middle of one. -/
def splitOn (sep s : String) : List String :=
  if sep.toList.any isHoldingPart then
    let (first, later) := pieces (codePoints sep) 0 (codePoints s)
    (first :: later).map ofCodePoints
  else
    let (first, later) := pieces sep.toList 0 s.toList
    (first :: later).map String.ofList

/-- Texts put together with a separator between them. -/
def join (sep : String) (parts : List String) : String :=
  sep.intercalate parts

end Autogen.Text
