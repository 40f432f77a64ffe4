import Flowchart.Flow.Dialect

set_option autoImplicit false

/-!
# Scenarios

A scenario runs steps, each of which is a contract. Its flow function has the steps in an array, or
collects them in statements.

## Main definitions

* `Flowchart.Scenario`: what a chart shows of a scenario.
* `Flowchart.Scenario.ofFunction`: the scenario that a flow function describes.
* `Flowchart.Scenario.draft`: the chart of a scenario.
-/

namespace Flowchart

/-- What a chart shows of a scenario. -/
inductive Scenario where
  /-- The flow runs statements. -/
  | statements (body : List Stmt)
  /-- The flow is a list of steps with the given labels. -/
  | steps (labels : List String)
  /-- The flow is neither. -/
  | unreadable

/-- The scenario that a flow function describes, where `names` says which contracts the variables of
its script stand for. -/
def Scenario.ofFunction (names : Names) (function : Tree) : Scenario :=
  match function.child? "body" with
  | none => .unreadable
  | some body =>
    if body.kind = "statement_block" then
      .statements (Stmt.ofForest (.scenario names) body.children)
    else if body.unwrap.kind = "array" then .steps (body.stepLabels names)
    else .unreadable

/-- What a scenario does. If it has no end, its start itself leads on. -/
def Drawing.scenario : Scenario → Drawing
  | .statements body => settle none (Stmt.drawAll body)
  | .steps labels => settle none (chain (labels.map fun label => ⟨.action, label⟩))
  | .unreadable => settle none (mark ⟨.unsupported, "unsupported: flow body"⟩)

/-- The chart of a scenario. -/
def Scenario.draft (s : Scenario) : Draft :=
  Drawing.chart "end" (.scenario s)

end Flowchart
