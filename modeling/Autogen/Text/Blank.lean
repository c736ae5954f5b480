/-!
# White space

The white-space characters of Unicode and the removal of white space at the ends of a text.

## Main definitions

* `Text.isBlank` — the white-space characters.
* `Text.strip` — a text without the white space at its ends.
-/

namespace Autogen.Text

/-- White space: the ASCII controls and separators that separate words, and the Unicode space,
line and paragraph separators. The zero-width space and the byte order mark are not among them. -/
def isBlank (c : Char) : Bool :=
  let n := c.toNat
  (0x09 ≤ n && n ≤ 0x0d) || (0x1c ≤ n && n ≤ 0x20) || n == 0x85 || n == 0xa0 || n == 0x1680 ||
    (0x2000 ≤ n && n ≤ 0x200a) || n == 0x2028 || n == 0x2029 || n == 0x202f || n == 0x205f ||
    n == 0x3000

/-- The characters without the blanks at either end. -/
def stripChars (cs : List Char) : List Char :=
  ((cs.dropWhile isBlank).reverse.dropWhile isBlank).reverse

/-- A text without the white space at its ends. -/
def strip (s : String) : String :=
  .ofList (stripChars s.toList)

end Autogen.Text
