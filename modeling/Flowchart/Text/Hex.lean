set_option autoImplicit false

/-!
# Hexadecimal digits

Numbers in base sixteen, as escapes, byte reports and fingerprints write them.

## Main definitions

* `Flowchart.Text.hexDigits`: a number in lowercase digits, padded by zeros to a width.
* `Flowchart.Text.isHexDigit`: the digits of either case.
-/

namespace Flowchart.Text

/-- The lowercase digits of a number in base sixteen, padded by zeros to a width. -/
def hexDigits (width n : Nat) : List Char :=
  let digits := Nat.toDigits 16 n
  List.replicate (width - digits.length) '0' ++ digits

/-- A hexadecimal digit is a decimal digit or one of the letters A to F in either case. -/
def isHexDigit (c : Char) : Bool :=
  let n := c.toNat
  (0x30 ≤ n && n ≤ 0x39) || (0x41 ≤ n && n ≤ 0x46) || (0x61 ≤ n && n ≤ 0x66)

end Flowchart.Text
