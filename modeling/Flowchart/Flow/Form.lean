import Flowchart.Tree.Caption
import Flowchart.Tree.Expression

set_option autoImplicit false

/-!
# Forms of statements

The forms that the grammar has for statements, by the kinds of their trees, and the labels of the
nodes that stand for them.

## Main definitions

* `Flowchart.Form`: the forms of statements.
* `Flowchart.Form.ofKind`: the form that a kind of tree has.
* `Flowchart.Tree.branchLabel`, `Flowchart.Tree.loopLabel`, `Flowchart.Tree.failLabel`,
  `Flowchart.Tree.unsupportedLabel`: labels.
-/

namespace Flowchart

/-- The forms of loops. -/
inductive LoopForm where
  /-- With a header of three parts. -/
  | counting
  /-- Over the members of a value. -/
  | traversing
  /-- With the test before the body. -/
  | testFirst
  /-- With the test after the body. -/
  | testLast
  deriving DecidableEq, Repr

/-- The forms of statements. -/
inductive Form where
  | block
  | branch
  | loop (form : LoopForm)
  | leave
  | fail
  /-- Control flow that a chart does not follow. -/
  | unsupported
  /-- No statement at all. -/
  | blank
  | plain
  deriving DecidableEq, Repr

/-- The form of the statements of a kind. -/
def Form.ofKind (kind : String) : Form :=
  if kind = "statement_block" then .block
  else if kind = "if_statement" then .branch
  else if kind = "for_statement" then .loop .counting
  else if kind = "for_in_statement" then .loop .traversing
  else if kind = "while_statement" then .loop .testFirst
  else if kind = "do_statement" then .loop .testLast
  else if kind = "return_statement" then .leave
  else if kind = "throw_statement" then .fail
  else if kind ∈ ["switch_statement", "try_statement", "break_statement", "continue_statement"] then
    .unsupported
  else if kind ∈ ["empty_statement", "comment"] then .blank
  else .plain

namespace Tree

/-- The form of a statement. -/
def form (t : Tree) : Form :=
  Form.ofKind t.kind

/-- The condition of a statement without the parentheses around it. -/
def condition? (t : Tree) : Option Tree :=
  (t.child? "condition").map stripParens

/-- The label of a choice. -/
def branchLabel (t : Tree) : String :=
  captioned "if" t.condition?

/-- The word between the variable and the value of a traversing loop: the kind of the child in the
field `operator` or of the first such token, and `in` if there is neither. -/
def traversal (t : Tree) : String :=
  match t.child? "operator" with
  | some operator => operator.kind
  | none =>
    match t.children.find? fun c => !c.named && c.kind ∈ ["in", "of"] with
    | some token => token.kind
    | none => "in"

/-- The label of a loop. -/
def loopLabel (t : Tree) : LoopForm → String
  | .counting => "for (...)"
  | .traversing =>
    captioned (if t.traversal = "of" then "for-of" else "for-in") (t.child? "right")
  | .testFirst => captioned "while" t.condition?
  | .testLast => captioned "do-while" t.condition?

/-- The label of a failing statement. -/
def failLabel (t : Tree) : String :=
  captioned "throw" t.firstCode?

/-- The label of a statement that a chart does not follow. -/
def unsupportedLabel (t : Tree) : String :=
  "unsupported: " ++ t.kind

end Tree

end Flowchart
