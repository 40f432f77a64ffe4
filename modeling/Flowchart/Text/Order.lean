set_option autoImplicit false

/-!
# Order of text

Text in the order of its code points. A text comes before all of which it is a proper beginning;
otherwise the first character in which two texts differ decides.

## Main definitions

* `Flowchart.Text.charsLe`: the order of lists of characters.
* `Flowchart.Text.le`: the order of strings.
-/

namespace Flowchart.Text

/-- Whether a list of characters is not after another one. -/
def charsLe : List Char → List Char → Bool
  | [], _ => true
  | _ :: _, [] => false
  | c :: cs, d :: ds => c.toNat < d.toNat || (c == d && charsLe cs ds)

/-- Whether a text is not after another one. -/
def le (s t : String) : Bool :=
  charsLe s.toList t.toList

end Flowchart.Text
