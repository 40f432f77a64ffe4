import Flowchart.Text.Spacing
import Flowchart.Tree.Basic

set_option autoImplicit false

/-!
# Captions

The text of a syntax tree as it is shown on a chart: on one line and cut to the label width.

## Main definitions

* `Flowchart.Tree.caption`: the short text of a tree.
* `Flowchart.Tree.captioned`: a word followed by the caption of a tree, if there is one.
-/

namespace Flowchart.Tree

/-- The text of a tree in normal form, cut to the label width. -/
def caption (t : Tree) : String :=
  Text.shorten (Text.normalize t.text)

/-- A word and the caption of a tree; the word alone if there is no tree. -/
def captioned (word : String) (tree : Option Tree) : String :=
  match tree with
  | some t => word ++ " " ++ t.caption
  | none => word

end Flowchart.Tree
