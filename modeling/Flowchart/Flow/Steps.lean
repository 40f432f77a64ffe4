import Flowchart.Source.Site
import Flowchart.Tree.Caption

set_option autoImplicit false

/-!
# Steps

The steps of a scenario in an expression: calls of `step`, alone, in arrays, or pushed to an array.

## Main definitions

* `Flowchart.Tree.stepLabel`: the label of one call of `step`.
* `Flowchart.Tree.stepLabels`: the labels of all steps in an expression, in order.
-/

namespace Flowchart.Tree

/-- The label of a call of `step`: the contract that its first argument names, directly or by a
variable. -/
def stepLabel (names : Names) (call : Tree) : String :=
  match call.arguments.head? with
  | none => "step <unknown>"
  | some a =>
    match a.identifier? with
    | some v => "step " ++ (names.contract? v).getD v
    | none => "step " ++ a.caption

/-- Whether a call pushes its arguments to something. -/
def isPush (call : Tree) : Bool :=
  match call.child? "function" with
  | some f => f.kind == "member_expression" && (f.child? "property").map text == some "push"
  | none => false

mutual

/-- The labels of the steps in an expression, inside parentheses and type assertions. -/
def stepLabels (names : Names) : Tree → List String
  | t@(.node h cs) =>
    match valueSide h.kind with
    | some .first => firstStepLabels names cs
    | some .last => lastStepLabels names cs
    | none =>
      if h.kind = "call_expression" then
        if t.callee? = some "step" then [stepLabel names t]
        else if t.isPush then argumentStepLabels names cs
        else []
      else if h.kind = "array" then allStepLabels names cs
      else []

/-- The labels of the steps in the first code tree among siblings. -/
def firstStepLabels (names : Names) : List Tree → List String
  | [] => []
  | c :: cs => if c.isCode then stepLabels names c else firstStepLabels names cs

/-- The labels of the steps in the last code tree among siblings. -/
def lastStepLabels (names : Names) : List Tree → List String
  | [] => []
  | c :: cs =>
    if cs.any isCode then lastStepLabels names cs
    else if c.isCode then stepLabels names c
    else []

/-- The labels of the steps in the arguments among the children of a call. -/
def argumentStepLabels (names : Names) : List Tree → List String
  | [] => []
  | .node h cs :: rest =>
    if h.field == some "arguments" then allStepLabels names cs else argumentStepLabels names rest

/-- The labels of the steps in all code trees among siblings. -/
def allStepLabels (names : Names) : List Tree → List String
  | [] => []
  | c :: cs => (if c.isCode then stepLabels names c else []) ++ allStepLabels names cs

end

end Flowchart.Tree
