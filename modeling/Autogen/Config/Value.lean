import Autogen.Moment
import Autogen.Number.Shortest
import Autogen.Text.Digit
import Autogen.Text.Quoted

/-!
# Configuration values

The values that a decoded configuration holds, and the texts by which they are known: the plain
one, which a value stands for where a text is wanted, and the one that messages show.

## Main definitions

* `Value` — a configuration value.
* `Value.shown`, `Value.plain` — its two texts.
* `Value.isWritable` — whether it has them.
* `Value.isSet` — whether it counts as given.
* `Value.mapping`, `Value.field?` — mappings, and the value of a named field.
-/

namespace Autogen

/-- A configuration value. The keys of a mapping are values too; its pairs are in their order. -/
inductive Value where
  | null
  | bool (b : Bool)
  | int (n : Int)
  | float (x : Double)
  | string (s : String)
  | bytes (bs : List UInt8)
  | moment (m : Moment)
  | list (items : List Value)
  | map (pairs : List (Value × Value))
deriving Inhabited

/-- The pairs of a mapping. -/
abbrev Fields := List (Value × Value)

namespace Value

mutual

/-- The text by which messages show a value. -/
def shown : Value → String
  | null => "None"
  | bool true => "True"
  | bool false => "False"
  | int n => toString n
  | float x => x.text
  | string s => Text.quoted s
  | bytes bs => Text.quotedBytes bs
  | moment m => m.shown
  | list items => "[" ++ ", ".intercalate (shownItems items) ++ "]"
  | map pairs => "\x7b" ++ ", ".intercalate (shownPairs pairs) ++ "\x7d"

/-- The shown texts of the items of a list. -/
def shownItems : List Value → List String
  | [] => []
  | item :: rest => shown item :: shownItems rest

/-- The shown texts of the pairs of a mapping. -/
def shownPairs : List (Value × Value) → List String
  | [] => []
  | (key, value) :: rest => (shown key ++ ": " ++ shown value) :: shownPairs rest

end

/-- The text that a value stands for: a text stands for itself, a date or time has a plain text, and
other values are shown. -/
def plain : Value → String
  | string s => s
  | moment m => m.text
  | value => value.shown

/-- Whether an integer has no more digits than are written. -/
def fitsDigits (n : Int) : Bool :=
  n.natAbs < Nat.pow 10 Text.digitLimit

mutual

/-- Whether a value can be written as a text: no integer in it has too many digits. -/
def isWritable : Value → Bool
  | int n => fitsDigits n
  | list items => itemsWritable items
  | map pairs => pairsWritable pairs
  | _ => true

/-- Whether the items of a list can be written. -/
def itemsWritable : List Value → Bool
  | [] => true
  | item :: rest => item.isWritable && itemsWritable rest

/-- Whether the pairs of a mapping can be written. -/
def pairsWritable : List (Value × Value) → Bool
  | [] => true
  | (key, value) :: rest => key.isWritable && value.isWritable && pairsWritable rest

end

/-- Whether a value counts as given: it is neither null nor false, zero or empty. -/
def isSet : Value → Bool
  | null => false
  | bool b => b
  | int n => n != 0
  | float x => !x.isZero
  | string s => s != ""
  | bytes bs => !bs.isEmpty
  | moment _ => true
  | list items => !items.isEmpty
  | map pairs => !pairs.isEmpty

/-- The text of a value that counts as given is not empty. -/
theorem plain_ne_empty {value : Value} (h : value.isSet = true) : value.plain ≠ "" := by
  cases value with
  | null => cases h
  | bool b =>
    obtain rfl : b = true := h
    decide
  | int n =>
    have htext : toString n ≠ "" := by
      cases n <;> simp [toString, Int.repr, String.append_eq_empty_iff, Nat.repr_ne_empty]
    exact htext
  | float x => exact x.text_ne_empty
  | string s => simpa [isSet, plain] using h
  | bytes bs => simp [plain, shown, Text.quotedBytes]
  | moment m => exact m.text_ne_empty
  | list items => simp [plain, shown, String.append_eq_empty_iff]
  | map pairs => simp [plain, shown, String.append_eq_empty_iff]

/-- What tells keys apart. Truth values are the numbers zero and one, and a float that is an
integer is that integer. -/
inductive Key where
  | null
  | integer (n : Int)
  | float (x : Double)
  | string (s : String)
  | bytes (bs : List UInt8)
  | moment (identity : Moment ⊕ Int)
deriving DecidableEq

/-- The key that a value is, if it can be one. -/
def key? : Value → Option Key
  | null => some .null
  | bool b => some (.integer (if b then 1 else 0))
  | int n => some (.integer n)
  | float x => some (match x.integer? with | some n => .integer n | none => .float x)
  | string s => some (.string s)
  | bytes bs => some (.bytes bs)
  | moment m => some (.moment m.identity)
  | list _ => none
  | map _ => none

/-- The pairs with the value of one key set: in the place of a pair with an equal key, or at the
end. The key that was there first stays. -/
def setPair (key value : Value) : Fields → Fields
  | [] => [(key, value)]
  | pair :: rest =>
    if pair.1.key? = key.key? then (pair.1, value) :: rest else pair :: setPair key value rest

/-- The mapping of a list of pairs; of several values of a key the last one counts, in the place
of the first. -/
def mapping (pairs : Fields) : Value :=
  map (pairs.foldl (fun done pair => setPair pair.1 pair.2 done) [])

/-- The value of a named field. -/
def field? (name : String) : Fields → Option Value
  | [] => none
  | (string key, value) :: rest => if key = name then some value else field? name rest
  | _ :: rest => field? name rest

/-- The value of a named field, or null where it is missing. -/
def field (name : String) (fields : Fields) : Value :=
  (field? name fields).getD null

end Value

end Autogen
