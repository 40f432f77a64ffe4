import Flowchart.Flow.Dialect
import Flowchart.Tree.Tags

set_option autoImplicit false

/-!
# Contracts

A contract checks its preconditions one after the other, makes its transition, and then checks its
postconditions and invariants. A failing precondition leads to an error.

## Main definitions

* `Flowchart.Contract`: what a chart shows of a contract.
* `Flowchart.Contract.ofObject`: the contract that an object literal describes.
* `Flowchart.Contract.draft`: the chart of a contract.
-/

namespace Flowchart

/-- What a contract does once its preconditions hold. -/
inductive Transition where
  /-- There is no function to read. -/
  | unreadable
  /-- The function has no body. -/
  | bodiless
  /-- The function has the value of an expression, shown by its caption. -/
  | value (label : String)
  /-- The function runs statements. -/
  | statements (body : List Stmt)

/-- What a chart shows of a contract. -/
structure Contract where
  /-- The failure tags of each precondition. -/
  guards : List (List String)
  transition : Transition
  /-- The number of postconditions. -/
  postconditions : Nat
  /-- The number of invariants. -/
  invariants : Nat

/-! ### Reading -/

/-- The transition that a function describes. -/
def Transition.ofFunction (function : Tree) : Transition :=
  match function.child? "body" with
  | none => .bodiless
  | some body =>
    if body.kind = "statement_block" then .statements (Stmt.ofForest .contract body.children)
    else .value body.caption

/-- The contract that an object literal in a script describes. -/
def Contract.ofObject (root object : Tree) : Contract where
  guards := (Tree.elements (object.arrayProperty? "pre")).map root.guardTags
  transition := match object.functionProperty? "transition" with
    | some function => .ofFunction function
    | none => .unreadable
  postconditions := (Tree.elements (object.arrayProperty? "post")).length
  invariants := (Tree.elements (object.arrayProperty? "invariant")).length

/-! ### Drawing -/

/-- The labels of the errors that a precondition leads to: one for each tag, or a single one that
names the precondition. -/
def errorLabels (place : Nat) (tags : List String) : List String :=
  if tags.isEmpty then ["error(pre." ++ toString place ++ ")"]
  else tags.map fun tag => "error: " ++ tag

namespace Drawing

/-- A precondition in its place, counted from one, with its errors. -/
def guard (place : Nat) (tags : List String) : Drawing := fun size entries =>
  let id := nodeId (size + 1)
  let errors := (errorLabels place tags).map fun label => (⟨.error, label⟩ : Mark)
  let failures := (List.range errors.length).map fun i =>
    (⟨id, nodeId (size + 2 + i), some "fail"⟩ : Graph.Edge)
  ⟨⟨.precondition, "pre." ++ toString place⟩ :: errors, link entries id ++ failures,
    [⟨id, some "pass"⟩], []⟩

/-- Checks in a row, labelled by a word and their places. -/
def checks (kind : NodeKind) (word : String) (count : Nat) : Drawing :=
  chain ((List.range count).map fun i => ⟨kind, word ++ "." ++ toString (i + 1)⟩)

/-- What a transition does. -/
def transition : Transition → Drawing
  | .unreadable => mark ⟨.unsupported, "unsupported: transition is not function-like"⟩
  | .bodiless => skip
  | .value label => returning label
  | .statements body => Stmt.drawAll body

/-- A contract between its terminals. If the transition has no end, its node itself leads on. -/
def contract (c : Contract) : Drawing :=
  sequence
    [sequence ((c.guards.zipIdx 1).map fun (tags, place) => guard place tags),
      mark ⟨.action, "transition"⟩,
      settle (some "success") (transition c.transition),
      checks .postcondition "post" c.postconditions,
      checks .invariant "invariant" c.invariants]

end Drawing

/-- The chart of a contract. -/
def Contract.draft (c : Contract) : Draft :=
  Drawing.chart "ok" (.contract c)

end Flowchart
