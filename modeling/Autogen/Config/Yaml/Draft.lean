import Autogen.Config.Yaml.Node
import Autogen.Config.Yaml.Resolve

/-!
# YAML

From the parts of a document to its value. First every scalar gets its value and the mappings that
are to be merged into others are put there; then the values of the collections are built. A document
can have several faults on the way. The one that is nested least counts, and of those equally deep
the first.

## Main definitions

* `Yaml.Draft` — a part of a document whose scalars have their values.
* `Yaml.Node.draft` — the draft of a part of a document.
* `Yaml.Draft.build` — the value of a draft.
* `Yaml.parse` — the value that a text writes.
-/

namespace Autogen.Yaml

open Decode

/-- A part of a document whose scalars have their values and whose merges are done. In a mapping
that is `unmergeable`, something other than mappings is to be merged. -/
inductive Draft where
  | scalar (value : Except DecodeFault Value)
  | sequence (items : List Draft)
  | mapping (pairs : List (Draft × Draft))
  | unmergeable

/-- The pairs of a mapping. -/
def Draft.pairs? : Draft → Option (List (Draft × Draft))
  | .mapping pairs => some pairs
  | _ => none

/-- The pairs that are merged where a mapping or a sequence of mappings is to be. The earlier
mappings of a sequence come later, and so they prevail. -/
def Draft.merged? : Draft → Option (List (Draft × Draft))
  | .mapping pairs => some pairs
  | .sequence items => do return (← items.mapM Draft.pairs?).reverse.flatten
  | _ => none

/-- Whether a node is the plain scalar of the given spelling. -/
def Node.isMark (mark : String) : Node → Bool
  | .scalar text plain => plain && text == mark
  | _ => false

mutual

/-- The draft of a part of a document. What is merged into a mapping comes before its own pairs. -/
def Node.draft : Node → Draft
  | .scalar text plain => .scalar (if plain then resolve text else .ok (.string text))
  | .sequence items => .sequence (itemDrafts items)
  | .mapping pairs =>
    match pairDrafts pairs with
    | some (merged, own) => .mapping (merged ++ own)
    | none => .unmergeable

/-- The drafts of the items of a sequence. -/
def itemDrafts : List Node → List Draft
  | [] => []
  | item :: rest => item.draft :: itemDrafts rest

/-- The drafts of the pairs of a mapping: those that are merged into it, and its own. -/
def pairDrafts : List (Node × Node) → Option (List (Draft × Draft) × List (Draft × Draft))
  | [] => some ([], [])
  | (key, value) :: rest => do
    let (merged, own) ← pairDrafts rest
    if key.isMark mergeMark then return ((← value.draft.merged?) ++ merged, own)
    else if key.isMark defaultMark then
      return (merged, (.scalar (.ok (.string defaultMark)), value.draft) :: own)
    else return (merged, (key.draft, value.draft) :: own)

end

/-- A fault in a document with the number of collections around it. -/
structure NestedFault where
  depth : Nat
  fault : DecodeFault
deriving DecidableEq, Repr

/-- What is built from a part of a document, or the fault that counts in it. -/
abbrev Built (α : Type) := Except NestedFault α

/-- Two parts next to each other. Of two faults the one that is nested less counts, or the first. -/
def Built.and {α β : Type} : Built α → Built β → Built (α × β)
  | .ok a, .ok b => .ok (a, b)
  | .ok _, .error g => .error g
  | .error f, .ok _ => .error f
  | .error f, .error g => .error (if g.depth < f.depth then g else f)

/-- A part inside of one more collection. -/
def Built.nested {α : Type} (built : Built α) : Built α :=
  built.mapError fun f => { f with depth := f.depth + 1 }

/-- The value of a scalar. -/
def Built.ofScalar (value : Except DecodeFault Value) : Built Value :=
  value.mapError fun fault => ⟨0, fault⟩

/-- A key, which cannot be a collection. -/
def Draft.buildKey : Draft → Built Value
  | .scalar value => .ofScalar value
  | _ => .error ⟨0, .malformed⟩

mutual

/-- The value of a draft. -/
def Draft.build : Draft → Built Value
  | .scalar value => .ofScalar value
  | .sequence items => Built.nested ((buildItems items).map Value.list)
  | .mapping pairs => Built.nested ((buildPairs pairs).map Value.mapping)
  | .unmergeable => Built.nested (.error ⟨0, .malformed⟩)

/-- The values of the items of a sequence. -/
def buildItems : List Draft → Built (List Value)
  | [] => .ok []
  | item :: rest => (Built.and item.build (buildItems rest)).map fun (value, values) =>
      value :: values

/-- The fields of a mapping. -/
def buildPairs : List (Draft × Draft) → Built Fields
  | [] => .ok []
  | (key, value) :: rest =>
    (Built.and (Built.and key.buildKey value.build) (buildPairs rest)).map fun (field, fields) =>
      field :: fields

end

/-- The value that a text writes; no document writes null. -/
def parse (text : Excerpt) : Except DecodeFault Value := do
  match ← Node.ofTokens? (Token.ofExcerpt text) with
  | some node => node.draft.build.mapError (·.fault)
  | none => return .null

end Autogen.Yaml
