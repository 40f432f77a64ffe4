set_option autoImplicit false

/-!
# Blank characters

The characters that count as white space everywhere in this library: between the words of a
label, around a diagram label and inside a fingerprint marker.

## Main definitions

* `Flowchart.Text.isBlank`: the white-space set.
* `Flowchart.Text.trimBlank`, `Flowchart.Text.trim`: text without blanks at either end.

## Design

The set is the Unicode property `White_Space` together with the four information separators
U+001C to U+001F. It is wider than `Char.isWhitespace`, which knows ASCII only, and it leaves out
U+180E, U+200B and U+FEFF, which print as nothing but separate no words.
-/

namespace Flowchart.Text

/-- A blank is a Unicode white-space character or an ASCII information separator. -/
def isBlank (c : Char) : Bool :=
  let n := c.toNat
  (0x09 ≤ n && n ≤ 0x0d) || (0x1c ≤ n && n ≤ 0x20) || n == 0x85 || n == 0xa0 || n == 0x1680
    || (0x2000 ≤ n && n ≤ 0x200a) || n == 0x2028 || n == 0x2029 || n == 0x202f || n == 0x205f
    || n == 0x3000

/-- The characters without the blanks before the first and after the last other character. -/
def trimBlank (cs : List Char) : List Char :=
  ((cs.dropWhile isBlank).reverse.dropWhile isBlank).reverse

/-- Text without leading and trailing blanks. -/
def trim (s : String) : String :=
  String.ofList (trimBlank s.toList)

@[simp] theorem toList_trim (s : String) : (trim s).toList = trimBlank s.toList :=
  String.toList_ofList

end Flowchart.Text
