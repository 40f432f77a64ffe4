import Flowchart.Flow.Form
import Flowchart.Flow.Steps
import Flowchart.Flow.Stmt

set_option autoImplicit false

/-!
# Dialects

Reading statements off their trees. Contracts and scenarios are read alike but for the statements
that return and for plain ones, which is what a dialect settles.

## Main definitions

* `Flowchart.Dialect`: how plain and returning statements are read.
* `Flowchart.Dialect.contract`, `Flowchart.Dialect.scenario`: the two dialects.
* `Flowchart.Stmt.ofTree`, `Flowchart.Stmt.ofForest`: the statements of trees.
-/

namespace Flowchart

/-- How the statements are read that contracts and scenarios read differently. -/
structure Dialect where
  /-- The kinds of plain statements that are not shown. -/
  silent : List String
  /-- The nodes for a statement that returns. -/
  leaving : Tree → List Mark
  /-- The nodes for a plain statement. -/
  plain : Tree → List Mark

namespace Dialect

/-- The node for a statement that a chart does not follow. -/
def unsupported (t : Tree) : Mark :=
  ⟨.unsupported, t.unsupportedLabel⟩

/-- In a contract every statement is an action, and returning is one too. -/
def contract : Dialect where
  silent := []
  leaving t := [⟨.action, Tree.captioned "return" t.firstCode?⟩]
  plain t := [⟨.action, t.caption⟩]

/-- The nodes for the steps in an expression, none if there is no expression. -/
def steps (names : Names) (expression : Option Tree) : List Mark :=
  match expression with
  | some e => (e.stepLabels names).map fun label => ⟨.action, label⟩
  | none => []

/-- In a scenario the steps in an expression are actions. Declarations are not shown, and no other
plain statement has a meaning. -/
def scenario (names : Names) : Dialect where
  silent := ["lexical_declaration", "variable_declaration"]
  leaving t := steps names t.firstCode?
  plain t :=
    if t.kind = "expression_statement" then steps names t.firstCode? else [unsupported t]

end Dialect

namespace Stmt

/-! ### Statements of trees -/

mutual

/-- The statement of a tree. -/
def ofTree (d : Dialect) : Tree → Stmt
  | t@(.node _ cs) =>
    match t.form with
    | .block => .block (ofForest d cs)
    | .branch => .branch t.branchLabel (ofField d "consequence" cs) (ofAlternative d cs)
    | .loop form => .loop (t.loopLabel form) (ofField d "body" cs)
    | .leave => .leave (d.leaving t)
    | .fail => .fail t.failLabel
    | .unsupported => .emit [Dialect.unsupported t]
    | .blank => .skip
    | .plain => if t.kind ∈ d.silent then .skip else .emit (d.plain t)
termination_by structural t => t

/-- The statements of the code trees among siblings. -/
def ofForest (d : Dialect) : List Tree → List Stmt
  | [] => []
  | c :: cs => if c.isCode then ofTree d c :: ofForest d cs else ofForest d cs

/-- The statement of the first sibling in a field; without one nothing is shown. -/
def ofField (d : Dialect) (field : String) : List Tree → Stmt
  | [] => .skip
  | c :: cs => if c.head.field == some field then ofTree d c else ofField d field cs

/-- The statement that a choice runs if its condition is false: what its alternative holds, or the
alternative itself if it is no clause. -/
def ofAlternative (d : Dialect) : List Tree → Stmt
  | [] => .skip
  | .node h cs :: rest =>
    if h.field == some "alternative" then
      if h.kind = "else_clause" then ofFirst d cs else ofTree d (.node h cs)
    else ofAlternative d rest

/-- The statement of the first code tree among siblings; without one nothing is shown. -/
def ofFirst (d : Dialect) : List Tree → Stmt
  | [] => .skip
  | c :: cs => if c.isCode then ofTree d c else ofFirst d cs

end

end Stmt

end Flowchart
