import Flowchart.Text.Quoted

set_option autoImplicit false

/-!
# Kinds

The kinds of the nodes of a flow chart and of the things that a chart documents, with their names.

## Main definitions

* `Flowchart.NodeKind`, `Flowchart.OwnerKind`: the kinds.
* `Flowchart.NodeKind.ofName`, `Flowchart.OwnerKind.ofName`: the kind that a name denotes, or
  `Flowchart.UnknownKind`.
-/

namespace Flowchart

/-- What a node of a flow chart stands for. -/
inductive NodeKind where
  | start
  | finish
  | action
  | decision
  | loop
  | error
  | unsupported
  | precondition
  | postcondition
  | invariant
  deriving DecidableEq, Repr

/-- What a flow chart documents. -/
inductive OwnerKind where
  | contract
  | scenario
  deriving DecidableEq, Repr

/-- A name that denotes no kind. -/
inductive UnknownKind where
  | node (name : String)
  | owner (name : String)
  deriving DecidableEq, Repr

/-- The message for a name that denotes no kind. -/
def UnknownKind.message : UnknownKind → String
  | .node name => Text.quote name ++ " is not a valid NodeKind"
  | .owner name => Text.quote name ++ " is not a valid OwnerKind"

namespace NodeKind

/-- All kinds of nodes. -/
def all : List NodeKind :=
  [.start, .finish, .action, .decision, .loop, .error, .unsupported, .precondition, .postcondition,
    .invariant]

/-- The name of a kind of node. -/
def name : NodeKind → String
  | .start => "start"
  | .finish => "end"
  | .action => "action"
  | .decision => "decision"
  | .loop => "loop"
  | .error => "error"
  | .unsupported => "unsupported"
  | .precondition => "precondition"
  | .postcondition => "postcondition"
  | .invariant => "invariant"

/-- The kind of node that a name denotes. -/
def ofName (name : String) : Except UnknownKind NodeKind :=
  match all.find? fun k => k.name == name with
  | some k => .ok k
  | none => .error (.node name)

/-- Every kind of node is read back from its name. -/
theorem ofName_name (k : NodeKind) : ofName k.name = .ok k := by
  cases k <;> rfl

end NodeKind

namespace OwnerKind

/-- All kinds of owners. -/
def all : List OwnerKind :=
  [.contract, .scenario]

/-- The name of a kind of owner. -/
def name : OwnerKind → String
  | .contract => "contract"
  | .scenario => "scenario"

/-- The name of a kind of owner in a heading. -/
def title : OwnerKind → String
  | .contract => "Contract"
  | .scenario => "Scenario"

/-- The kind of owner that a name denotes. -/
def ofName (name : String) : Except UnknownKind OwnerKind :=
  match all.find? fun k => k.name == name with
  | some k => .ok k
  | none => .error (.owner name)

/-- Every kind of owner is read back from its name. -/
theorem ofName_name (k : OwnerKind) : ofName k.name = .ok k := by
  cases k <;> rfl

end OwnerKind

end Flowchart
