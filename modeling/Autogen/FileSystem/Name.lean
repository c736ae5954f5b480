import Autogen.FileSystem.Basic
import Autogen.Text.Encoding

/-!
# Names of files

The system knows names and paths by their bytes. In a text that names a file the halves from U+DC80
to U+DCFF stand for the single bytes that belong to no character; the other halves stand for
nothing. Halves whose bytes together encode a character spell the same name as that character.

## Main definitions

* `FileSystem.spellingFault?` — why the system cannot be asked about a text.
* `FileSystem.systemBytes` — the bytes of a text for the system.
* `FileSystem.settled` — a text as the system gives it back.
* `FileSystem.isTooLong`, `FileSystem.isPathTooLong` — whether a name or a path has too many bytes.
* `FileSystem.IsEntryName` — the names that lead to an entry of a directory.
* `FileSystem.IsSystemName` — the names of entries that the system itself gives.

## Main statements

* `settled_of_isEncodable` — a text without halves is given back as it is.
-/

namespace Autogen.FileSystem

/-- The number of bytes that a name may have. -/
def nameLimit : Nat := 255

/-- The number of bytes from which on a path is too long. -/
def pathLimit : Nat := 4096

/-- Whether a code point can be written for the system. Of the halves of surrogate pairs some stand
for single bytes; the others cannot be written. -/
def isWritable (n : Nat) : Bool :=
  !Text.isHalfCode n || (0xdc80 ≤ n && n < 0xdd00)

/-- Why the system cannot be asked about a text, if it cannot. -/
def spellingFault? (text : String) : Option SpellingFault :=
  if !(Text.codePoints text).all isWritable then some .unencodable
  else if text.toList.contains '\x00' then some .embeddedNul
  else none

/-- The bytes of a code point for the system. The half for a byte has the byte as its last one. -/
def codePointBytes (n : Nat) : List UInt8 :=
  if Text.isHalfCode n then [UInt8.ofNat n] else String.utf8EncodeChar (Char.ofNat n)

/-- The bytes of a text for the system. -/
def systemBytes (text : String) : List UInt8 :=
  (Text.codePoints text).flatMap codePointBytes

/-- The character that some bytes start with, if they start with one, and the number of its
bytes. -/
def firstChar? (bytes : List UInt8) : Option (Char × Nat) :=
  [1, 2, 3, 4].findSome? fun count =>
    match Text.charsOf? ⟨(bytes.take count).toArray⟩ with
    | some [c] => some (c, count)
    | _ => none

/-- The code points that bytes of the system are read as. A byte that belongs to no character is
read as the half for it. -/
def readCodePoints : List UInt8 → List Nat
  | [] => []
  | b :: rest =>
    match firstChar? (b :: rest) with
    | some (c, count) => c.toNat :: readCodePoints (rest.drop (count - 1))
    | none => (0xdc00 + b.toNat) :: readCodePoints rest
termination_by bytes => bytes.length
decreasing_by all_goals simp only [List.length_drop, List.length_cons]; omega

/-- A text as the system gives it back, which has one spelling for every sequence of bytes. -/
def settled (text : String) : String :=
  if Text.isEncodable text then text else Text.ofCodePoints (readCodePoints (systemBytes text))

/-- Whether a name has more bytes than a name may have. -/
def isTooLong (name : String) : Bool :=
  nameLimit < (systemBytes name).length

/-- Whether a path has more bytes than a path may have. -/
def isPathTooLong (text : String) : Bool :=
  pathLimit ≤ (systemBytes text).length

/-- A text without halves is given back as it is. -/
theorem settled_of_isEncodable {text : String} (h : Text.isEncodable text = true) :
    settled text = text :=
  if_pos h

/-- A name that leads to an entry of a directory. -/
structure IsEntryName (name : String) : Prop where
  ne_empty : name ≠ ""
  ne_here : name ≠ "."
  ne_above : name ≠ ".."
  slash : '/' ∉ name.toList

theorem IsEntryName.not_dot {name : String} (h : IsEntryName name) : ¬(name = "" ∨ name = ".") :=
  fun hdot => hdot.elim h.ne_empty h.ne_here

instance decidableIsEntryName (name : String) : Decidable (IsEntryName name) :=
  decidable_of_iff (name ≠ "" ∧ name ≠ "." ∧ name ≠ ".." ∧ '/' ∉ name.toList)
    ⟨fun ⟨hempty, hhere, habove, hslash⟩ => ⟨hempty, hhere, habove, hslash⟩,
      fun h => ⟨h.ne_empty, h.ne_here, h.ne_above, h.slash⟩⟩

/-- A name of an entry as the system gives it: it can be asked about and is given back as it is. -/
structure IsSystemName (name : String) : Prop extends IsEntryName name where
  spelling : spellingFault? name = none
  short : isTooLong name = false
  settled_eq : settled name = name

end Autogen.FileSystem
