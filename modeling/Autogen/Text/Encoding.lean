import Autogen.Text.Surrogate

/-!
# Text files

The two layers between the bytes of a text file and its text: the encoding, UTF-8, and the three
ways to end a line, of which only the line feed is left after reading.

## Main definitions

* `Text.encode`, `Text.decode?` — text to bytes and back.
* `Text.isEncodable` — whether a text has an encoding.
* `Text.charsOf?` — the characters that bytes encode.
* `Text.flaw?` — where bytes are no text.
* `Text.unifyLineEnds` — every line end as a line feed.
* `Text.read?` — the text of a file's bytes.

## Main statements

* `isEncodable_of_not_mem` — a text without the mark of halves has an encoding.
* `read?_encode` — it is read back from a file if it has no line ends but line feeds.
-/

namespace Autogen.Text

/-- The bytes of the characters of a text. -/
def encode (s : String) : ByteArray :=
  (String.ofList (chars s)).toUTF8

/-- Whether a text has an encoding. A half of a surrogate pair has none. -/
def isEncodable (s : String) : Bool :=
  !(codePoints s).any isHalfCode

/-- The characters with the given bytes, if they are well-formed UTF-8. -/
def charsOf? (bytes : ByteArray) : Option (List Char) :=
  (String.fromUTF8? bytes).map String.toList

/-- The text with the given bytes, if they are well-formed UTF-8. -/
def decode? (bytes : ByteArray) : Option String :=
  (charsOf? bytes).map ofChars

/-- The number of bytes that follow the first byte of a character, and the least and the greatest
that may come first among them. -/
def followers? (first : Nat) : Option (Nat × Nat × Nat) :=
  if first < 0x80 then some (0, 0, 0)
  else if first < 0xc2 then none
  else if first < 0xe0 then some (1, 0x80, 0xbf)
  else if first = 0xe0 then some (2, 0xa0, 0xbf)
  else if first = 0xed then some (2, 0x80, 0x9f)
  else if first < 0xf0 then some (2, 0x80, 0xbf)
  else if first = 0xf0 then some (3, 0x90, 0xbf)
  else if first < 0xf4 then some (3, 0x80, 0xbf)
  else if first = 0xf4 then some (3, 0x80, 0x8f)
  else none

/-- A place at which bytes are no text: the number of bytes of the characters in front of it, and
the number of bytes in front of the one that shows the flaw. -/
structure Flaw where
  whole : Nat
  shown : Nat
deriving DecidableEq, Repr

/-- Whether a byte can follow the first one of a character. -/
def isFollower (b : UInt8) : Bool :=
  0x80 ≤ b && b < 0xc0

/-- Looks for a flaw, given the number of bytes still to follow with the bounds of the next one, the
number of bytes of the characters that are complete, and the number of bytes gone through. The bytes
that a half of a surrogate pair would have show their flaw at the third one. -/
def flawFrom? : Nat × Nat × Nat → Nat → Nat → List UInt8 → Option Flaw
  | (missing, _, _), whole, seen, [] => if missing = 0 then none else some ⟨whole, seen⟩
  | (0, _, _), _, seen, b :: rest =>
    match followers? b.toNat with
    | some next => flawFrom? next seen (seen + 1) rest
    | none => some ⟨seen, seen⟩
  | (missing + 1, least, most), whole, seen, b :: rest =>
    if least ≤ b.toNat ∧ b.toNat ≤ most then
      flawFrom? (missing, 0x80, 0xbf) whole (seen + 1) rest
    else if most = 0x9f ∧ isFollower b then some ⟨whole, seen + 1⟩
    else some ⟨whole, seen⟩

/-- The first place at which bytes are no text, if there is one. -/
def flaw? (bytes : List UInt8) : Option Flaw :=
  flawFrom? (0, 0, 0) 0 0 bytes

/-- Every line end, be it a line feed, a carriage return or the two of them, as a line feed. -/
def unifyLineEnds : List Char → List Char
  | '\r' :: '\n' :: cs => '\n' :: unifyLineEnds cs
  | '\r' :: cs => '\n' :: unifyLineEnds cs
  | c :: cs => c :: unifyLineEnds cs
  | [] => []

/-- The text of a file's bytes, with its line ends unified. -/
def read? (bytes : ByteArray) : Option String :=
  (charsOf? bytes).map fun cs => ofChars (unifyLineEnds cs)

/-- The bytes of a text encode its characters. -/
theorem charsOf?_encode (s : String) : charsOf? (encode s) = some (chars s) := by
  have hvalid := (String.ofList (chars s)).isValidUTF8
  rw [charsOf?, encode, String.fromUTF8?, String.toUTF8_eq_toByteArray, dif_pos hvalid]
  exact congrArg some String.toList_ofList

/-- A text that has an encoding holds its characters and nothing else. -/
theorem ofChars_chars {s : String} (h : isEncodable s = true) : ofChars (chars s) = s := by
  have hall : ∀ n ∈ codePoints s, isHalfCode n = false := by simpa [isEncodable] using h
  have hfilter : (codePoints s).filter (fun n => !isHalfCode n) = codePoints s :=
    List.filter_eq_self.mpr fun n hn => by simp [hall n hn]
  have hcodes : (chars s).map Char.toNat = codePoints s := by
    rw [chars, hfilter, List.map_map]
    refine (List.map_congr_left fun n hn => ?_).trans (List.map_id _)
    have hv := (isCodePoint_of_mem_heldBy hn).resolve_left (by simp [hall n hn])
    exact toNat_ofNat hv
  rw [ofChars, hcodes, ofCodePoints, codePoints, flatMap_held_heldBy hall, String.ofList_toList]

/-- A text without the mark of halves has an encoding. -/
theorem isEncodable_of_not_mem {s : String} (h : halfMark ∉ s.toList) : isEncodable s = true := by
  have hcodes (cs : List Char) (hcs : halfMark ∉ cs) : heldBy cs = cs.map Char.toNat := by
    induction cs with
    | nil => rfl
    | cons c cs ih =>
      rw [List.mem_cons, not_or] at hcs
      rw [heldBy_cons (Ne.symm hcs.1), ih hcs.2, List.map_cons]
  simp [isEncodable, codePoints, hcodes s.toList h, isHalfCode_toNat]

theorem unifyLineEnds_eq {cs : List Char} (h : '\r' ∉ cs) : unifyLineEnds cs = cs := by
  fun_induction unifyLineEnds cs with
  | case1 => simp at h
  | case2 => simp at h
  | case3 c cs _ _ ih => rw [ih fun hmem => h (List.mem_cons_of_mem c hmem)]
  | case4 => rfl

/-- The characters of a text that has an encoding are found in it. -/
theorem mem_of_mem_chars {s : String} (h : isEncodable s = true) {c : Char} (hc : c ≠ halfMark)
    (hmem : c ∈ chars s) : c ∈ s.toList := by
  rw [← ofChars_chars h, ofChars, ofCodePoints, String.toList_ofList]
  refine List.mem_flatMap.mpr ⟨c.toNat, List.mem_map_of_mem hmem, ?_⟩
  rw [held_toNat hc]
  exact List.mem_singleton_self c

/-- A text whose lines end in line feeds is read back from its bytes. -/
theorem read?_encode {s : String} (h : isEncodable s = true) (hline : '\r' ∉ s.toList) :
    read? (encode s) = some s := by
  have hchars : '\r' ∉ chars s := fun hmem => hline (mem_of_mem_chars h (by decide) hmem)
  rw [read?, charsOf?_encode, Option.map_some, unifyLineEnds_eq hchars, ofChars_chars h]

end Autogen.Text
