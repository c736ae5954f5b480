import Autogen.Config.Decode
import Autogen.Config.Yaml.Cursor
import Autogen.Text.Encoding

/-!
# Windows on a YAML text

A text is read through windows, of which the first two are opened at once and the others when they
are reached. What is wrong with the bytes or the characters of a text shows when the window is
opened that it lies in. A text with such a fault can be read up to that window, and other faults in
front of it come first.

## Main definitions

* `Yaml.Excerpt` — a text as far as it can be read, and the fault behind it.
* `Yaml.Excerpt.ofBytes` — the excerpt of the text of a file.
-/

namespace Autogen.Yaml

/-- A text as far as it can be read, and the fault that shows behind it. Without a fault it is the
whole text. -/
structure Excerpt where
  chars : List Char
  fault : Option DecodeFault := none

/-- The number of characters in a window. -/
def windowSize : Nat := 4096

/-- The least number of bytes that are decoded at a time. -/
def blockSize : Nat := 8192

/-- The place at which the window of a character begins; the first two windows are one. -/
def windowStart (index : Nat) : Nat :=
  let window := index / windowSize
  if window ≤ 1 then 0 else window * windowSize

/-- The characters whose encodings lie in the given number of bytes. -/
def fitting : Nat → List Char → List Char
  | _, [] => []
  | bytes, c :: cs => if c.utf8Size ≤ bytes then c :: fitting (bytes - c.utf8Size) cs else []

/-- The number of characters that the given number of bytes give. A carriage return at the end of
them is kept back, as it may be one half of a line end. -/
def decodedFrom (bytes : Nat) (cs : List Char) : Nat :=
  let before := fitting bytes cs
  let count := (Text.unifyLineEnds before).length
  if before.getLast? == some '\r' then count - 1 else count

/-- What has been decoded of a text: the numbers of bytes and characters, and those of the last
block. -/
structure Decoded where
  bytes : Nat := 0
  chars : Nat := 0
  blockBytes : Nat := 0
  blockChars : Nat := 0

/-- The end of the next block. It is as large as the rest of a window would be if its characters
took as many bytes as those of the last block. -/
def Decoded.nextEnd (d : Decoded) (size : Nat) : Nat :=
  let missing := windowSize - d.chars % windowSize
  min size (d.bytes + max blockSize (missing * d.blockBytes / d.blockChars))

/-- The number of characters that are decoded before a flaw shows, given the number of bytes of the
whole text, the characters in front of the flaw and what has been decoded. The first argument bounds
the number of blocks. -/
def charsBefore (flaw : Text.Flaw) (size : Nat) (cs : List Char) : Nat → Decoded → Nat
  | 0, d => d.chars
  | count + 1, d =>
    let next := d.nextEnd size
    if flaw.shown < next ∨ next = d.bytes then d.chars
    else
      let chars := decodedFrom next cs
      charsBefore flaw size cs count ⟨next, chars, next - d.bytes, chars - d.chars⟩

/-- The text of the bytes in front of a flaw. -/
def textBefore (flaw : Text.Flaw) (bytes : ByteArray) : List Char :=
  (Text.charsOf? (bytes.extract 0 flaw.whole)).getD []

/-- The excerpt of the text of a file. -/
def Excerpt.ofBytes (bytes : ByteArray) : Excerpt :=
  let flaw? := Text.flaw? bytes.toList
  let raw := match flaw? with
    | some flaw => textBefore flaw bytes
    | none => textBefore ⟨bytes.size, 0⟩ bytes
  let cs := Text.unifyLineEnds raw
  let upTo (index : Nat) (fault : DecodeFault) :
    Excerpt := ⟨cs.take (windowStart index), some fault⟩
  let blocks := bytes.size / blockSize + 2
  match flaw?.map (charsBefore · bytes.size raw blocks {}), cs.findIdx? (!isPrintable ·) with
  | none, none => { chars := cs }
  | some i, none => upTo i .undecodable
  | none, some j => upTo j .malformed
  | some i, some j =>
    if windowStart i ≤ windowStart j then upTo i .undecodable else upTo j .malformed

end Autogen.Yaml
