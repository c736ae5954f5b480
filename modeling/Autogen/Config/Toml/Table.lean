import Autogen.Config.Value

/-!
# Tables under construction

The tables of a TOML document while it is being read. A document defines its tables in sections,
and the section that defined a table decides what may still be added to it.

## Main definitions

* `Toml.Node`, `Toml.Entries` — a part of a document and the entries of a table.
* `Toml.openTable`, `Toml.addRow` — what the header of a section does.
* `Toml.assign` — what an assignment in a section does.
* `Toml.Entries.fields` — the fields that finished entries stand for.
-/

namespace Autogen.Toml

/-- A part of a document. A table knows the number of the section that defined it, if any has done
so yet; of an array of tables only the last row can still change. -/
inductive Node where
  | value (v : Value)
  | table (definedIn : Option Nat) (entries : List (String × Node))
  | array (rows : List Value) (last : List (String × Node))

/-- The entries of a table, in the order in which their keys came up. -/
abbrev Entries := List (String × Node)

mutual

/-- The value of a part of a document. -/
def Node.toValue : Node → Value
  | .value v => v
  | .table _ entries => .map (Entries.fields entries)
  | .array rows last => .list (rows ++ [.map (Entries.fields last)])

/-- The fields that entries stand for. -/
def Entries.fields : List (String × Node) → Fields
  | [] => []
  | (key, node) :: rest => (.string key, node.toValue) :: Entries.fields rest

end

/-- Changes the node of one key, which may be missing so far. -/
def Entries.change (key : String) (f : Option Node → Option Node) : Entries → Option Entries
  | [] => (f none).map fun node => [(key, node)]
  | (k, node) :: rest =>
    if k = key then (f (some node)).map fun node => (k, node) :: rest
    else (Entries.change key f rest).map fun rest => (k, node) :: rest

/-- Changes the entries of the table at a path that a header names. Tables on the way are made
where they are missing, and an array of tables is entered at its last row. -/
def descend (f : Entries → Option Entries) : List String → Entries → Option Entries
  | [], entries => f entries
  | key :: path, entries =>
    entries.change key fun
      | none => (descend f path []).map (.table none)
      | some (.table owner inner) => (descend f path inner).map (.table owner)
      | some (.array rows last) => (descend f path last).map (.array rows)
      | some (.value _) => none

/-- Defines the table of a header. A table can be defined once. -/
def openTable (number : Nat) (parents : List String) (key : String) : Entries → Option Entries :=
  descend (Entries.change key fun
    | none => some (.table (some number) [])
    | some (.table none inner) => some (.table (some number) inner)
    | some _ => none) parents

/-- Begins a row of the array of tables of a header. -/
def addRow (parents : List String) (key : String) : Entries → Option Entries :=
  descend (Entries.change key fun
    | none => some (.array [] [])
    | some (.array rows last) => some (.array (rows ++ [.map (Entries.fields last)]) [])
    | some _ => none) parents

/-- Gives a key its value. The tables on the way are defined by the section of the assignment, so
they must not have been defined by another one. -/
def assignBelow (number : Nat) (key : String) (v : Value) :
    List String → Entries → Option Entries
  | [], entries => entries.change key fun
    | none => some (.value v)
    | some _ => none
  | parent :: path, entries =>
    entries.change parent fun
      | none => (assignBelow number key v path []).map (.table (some number))
      | some (.table owner inner) =>
        if owner.all (· == number) then
          (assignBelow number key v path inner).map (.table (some number))
        else none
      | some _ => none

/-- Gives a key its value in the table of a section's header. -/
def assign (number : Nat) (header parents : List String) (key : String) (v : Value) :
    Entries → Option Entries :=
  descend (assignBelow number key v parents) header

end Autogen.Toml
