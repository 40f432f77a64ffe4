import Flowchart.Flow.Drawing

set_option autoImplicit false

/-!
# Statements

What a chart shows of the statements of a function, free of any grammar, and how it is drawn.

## Main definitions

* `Flowchart.Stmt`: a statement.
* `Flowchart.Stmt.draw`, `Flowchart.Stmt.drawAll`: the drawing of a statement and of a sequence of
  statements.

## Design

Statements behind one that never goes on are dead code. They are not drawn, because no open end is
left to lead into them.
-/

namespace Flowchart

/-- A statement, as far as a chart shows it. -/
inductive Stmt where
  /-- Passes the given nodes; none for a statement that is not shown. -/
  | emit (marks : List Mark)
  /-- Passes the given nodes and returns. -/
  | leave (marks : List Mark)
  /-- Fails with an error. -/
  | fail (label : String)
  /-- Runs statements in their order. -/
  | block (body : List Stmt)
  /-- Runs one of two statements. -/
  | branch (label : String) (whenTrue whenFalse : Stmt)
  /-- Runs a statement any number of times. -/
  | loop (label : String) (body : Stmt)

namespace Stmt

/-- The statement that is not shown. -/
def skip : Stmt := .emit []

mutual

/-- The drawing of a statement. -/
def draw : Stmt → Drawing
  | .emit marks => .chain marks
  | .leave marks => .leaving (.chain marks)
  | .fail label => .stop ⟨.error, label⟩
  | .block body => drawAll body
  | .branch label whenTrue whenFalse => .branch label whenTrue.draw whenFalse.draw
  | .loop label body => .loop label body.draw

/-- The drawing of statements one behind the other, as far as control gets. -/
def drawAll : List Stmt → Drawing
  | [] => .skip
  | s :: rest => .whenLive (.andThen s.draw (drawAll rest))

end

end Stmt

end Flowchart
