/-!
# Halves of surrogate pairs

An escape can write one half of a surrogate pair without the other. Such a half has a code point and
can be shown, but it is no character and has no encoding. A text holds it as two characters, a mark
and a stand-in. So that nothing else can be taken for a half, the mark itself is held twice.

## Main definitions

* `Text.codePoints`, `Text.ofCodePoints` — the code points of a text, and the text that holds them.
* `Text.chars`, `Text.ofChars` — the characters of a text, and the text that holds them.

## Main statements

* `flatMap_held_heldBy` — characters in which no half is held are the ones that hold their code
  points.
-/

namespace Autogen.Text

/-- Whether a code point is that of a half. -/
def isHalfCode (n : Nat) : Bool :=
  0xd800 ≤ n && n < 0xe000

/-- The character in front of the stand-in for a half, which is one for private use. -/
def halfMark : Char := Char.ofNat 0x10f000

/-- The distance from the code point of a half to that of its stand-in. -/
def halfDistance : Nat := 0x100000

/-- Whether a code point is that of a half or of a character. -/
def IsCodePoint (n : Nat) : Prop :=
  isHalfCode n ∨ n.isValidChar

instance (n : Nat) : Decidable (IsCodePoint n) :=
  inferInstanceAs (Decidable (_ ∨ _))

/-- The characters by which a text holds a code point. -/
def held (n : Nat) : List Char :=
  if isHalfCode n then [halfMark, Char.ofNat (n + halfDistance)]
  else if n = halfMark.toNat then [halfMark, halfMark]
  else [Char.ofNat n]

/-- The text that holds the given code points. -/
def ofCodePoints (ns : List Nat) : String :=
  .ofList (ns.flatMap held)

/-- The text that holds the given characters. -/
def ofChars (cs : List Char) : String :=
  ofCodePoints (cs.map Char.toNat)

/-- The code point that a character behind the mark stands for. What cannot stand there counts as
the first half. -/
def marked (c : Char) : Nat :=
  if c = halfMark then c.toNat
  else if isHalfCode (c.toNat - halfDistance) then c.toNat - halfDistance
  else 0xd800

/-- The code points that the given characters hold. -/
def heldBy : List Char → List Nat
  | [] => []
  | [c] => [if c = halfMark then 0xd800 else c.toNat]
  | c :: d :: rest => if c = halfMark then marked d :: heldBy rest
      else c.toNat :: heldBy (d :: rest)

/-- The code points of a text. -/
def codePoints (s : String) : List Nat :=
  heldBy s.toList

/-- The characters of a text without the halves in it. -/
def chars (s : String) : List Char :=
  ((codePoints s).filter fun n => !isHalfCode n).map Char.ofNat

theorem heldBy_mark_cons (c : Char) (cs : List Char) :
    heldBy (halfMark :: c :: cs) = marked c :: heldBy cs := by
  simp [heldBy]

theorem heldBy_cons {c : Char} (h : c ≠ halfMark) (cs : List Char) :
    heldBy (c :: cs) = c.toNat :: heldBy cs := by
  cases cs <;> simp [heldBy, h]

theorem toNat_ofNat {n : Nat} (h : n.isValidChar) : (Char.ofNat n).toNat = n := by
  rw [Char.ofNat, dif_pos h]
  exact UInt32.toNat_ofNatLT ..

theorem isHalfCode_toNat (c : Char) : isHalfCode c.toNat = false := by
  have h : c.toNat.isValidChar := c.valid
  simp only [Nat.isValidChar] at h
  simp only [isHalfCode, Bool.and_eq_false_iff, decide_eq_false_iff_not]
  omega

theorem held_toNat {c : Char} (h : c ≠ halfMark) : held c.toNat = [c] := by
  have hne : c.toNat ≠ halfMark.toNat := fun heq => h (Char.ext (UInt32.toNat_inj.mp heq))
  simp [held, isHalfCode_toNat, hne]

theorem held_halfMark : held halfMark.toNat = [halfMark, halfMark] := by
  rw [held, if_neg (by simp [isHalfCode_toNat]), if_pos rfl]

theorem isHalfCode_marked {c : Char} (h : c ≠ halfMark) : isHalfCode (marked c) = true := by
  by_cases hc : isHalfCode (c.toNat - halfDistance)
  · simp [marked, h, hc]
  · simp only [marked, if_neg h, if_neg hc]
    rfl

/-- Characters in which no half is held are the ones that hold their code points. -/
theorem flatMap_held_heldBy {cs : List Char} (h : ∀ n ∈ heldBy cs, isHalfCode n = false) :
    (heldBy cs).flatMap held = cs := by
  fun_induction heldBy cs with
  | case1 => rfl
  | case2 c =>
    by_cases hc : c = halfMark
    · simp [hc, isHalfCode] at h
    · simp [hc, held_toNat hc]
  | case3 d rest ih =>
    have ih := ih fun n hn => h n (List.mem_cons_of_mem _ hn)
    by_cases hd : d = halfMark
    · simp [hd, marked, held_halfMark, ih]
    · simp [isHalfCode_marked hd] at h
  | case4 c d rest hc ih =>
    have ih := ih fun n hn => h n (List.mem_cons_of_mem _ hn)
    simp [held_toNat hc, ih]

/-- What characters hold are code points. -/
theorem isCodePoint_of_mem_heldBy {cs : List Char} {n : Nat} (h : n ∈ heldBy cs) :
    IsCodePoint n := by
  fun_induction heldBy cs with
  | case1 => simp at h
  | case2 c =>
    rw [List.mem_singleton] at h
    split at h
    · exact .inl (by rw [h]; rfl)
    · exact .inr (by rw [h]; exact c.valid)
  | case3 d rest ih =>
    rcases List.mem_cons.mp h with rfl | h
    · by_cases hd : d = halfMark
      · exact .inr (by rw [marked, if_pos hd]; exact d.valid)
      · exact .inl (isHalfCode_marked hd)
    · exact ih h
  | case4 c d rest hc ih =>
    rcases List.mem_cons.mp h with rfl | h
    · exact .inr c.valid
    · exact ih h

end Autogen.Text
