import Flowchart.Graph.Kind
import Flowchart.Json

set_option autoImplicit false

/-!
# Flow graphs

A flow chart as data: labelled nodes and edges between them, both in a fixed order.

## Main definitions

* `Flowchart.Graph`: a flow graph, with `Graph.Node` and `Graph.Edge`.
* `Flowchart.Graph.node?`, `Flowchart.Graph.edgesFrom`, `Flowchart.Graph.edgesTo`,
  `Flowchart.Graph.nodesOfKind`: queries.
* `Flowchart.Graph.summary`: the number of nodes of each sort.
* `Flowchart.Graph.toJson`, `Flowchart.Graph.Summary.toJson`: graphs and summaries as data for
  other programs.

## Design

A graph is its two lists and promises nothing about them. Graphs that come from a
`Flowchart.Draft` have distinct identifiers and edges between known nodes, in order.
-/

namespace Flowchart

namespace Graph

/-- A node of a flow graph. -/
structure Node where
  id : String
  kind : NodeKind
  label : String
  /-- The place of the node in its graph, from one. -/
  order : Int
  deriving DecidableEq, Repr

/-- An edge of a flow graph. -/
structure Edge where
  source : String
  target : String
  label : Option String
  deriving DecidableEq, Repr

end Graph

/-- A flow graph. -/
structure Graph where
  nodes : List Graph.Node
  edges : List Graph.Edge
  deriving DecidableEq, Repr

namespace Graph

/-- The graph without nodes. -/
def empty : Graph := ⟨[], []⟩

/-! ### Queries -/

/-- The last node of an identifier. -/
def node? (g : Graph) (id : String) : Option Node :=
  g.nodes.reverse.find? fun n => n.id == id

/-- The edges that leave a node. -/
def edgesFrom (g : Graph) (id : String) : List Edge :=
  g.edges.filter fun e => e.source == id

/-- The edges that lead to a node. -/
def edgesTo (g : Graph) (id : String) : List Edge :=
  g.edges.filter fun e => e.target == id

/-- The nodes of a kind. -/
def nodesOfKind (g : Graph) (kind : NodeKind) : List Node :=
  g.nodes.filter fun n => n.kind == kind

/-! ### Summaries -/

/-- How many nodes of each sort a flow graph has. The numbers of a graph are natural ones, but a
summary may also be given by itself. -/
structure Summary where
  steps : Int
  branches : Int
  errorPaths : Int
  unsupported : Int
  deriving DecidableEq, Repr

end Graph

/-- A kind of node that counts as a step: an action, a choice or a check. -/
def NodeKind.isStep : NodeKind → Bool
  | .action | .decision | .loop | .precondition | .postcondition | .invariant => true
  | _ => false

/-- A kind of node at which control branches. -/
def NodeKind.isBranch : NodeKind → Bool
  | .decision | .loop => true
  | _ => false

namespace Graph

/-- The summary of a flow graph. -/
def summary (g : Graph) : Summary where
  steps := g.nodes.countP fun n => n.kind.isStep
  branches := g.nodes.countP fun n => n.kind.isBranch
  errorPaths := g.nodes.countP fun n => n.kind == .error
  unsupported := g.nodes.countP fun n => n.kind == .unsupported

/-! ### JSON -/

/-- A node as data. -/
def Node.toJson (n : Node) : Json :=
  .object [("id", .string n.id), ("kind", .string n.kind.name), ("label", .string n.label),
    ("order", .integer n.order)]

/-- An edge as data; an absent label has no entry. -/
def Edge.toJson (e : Edge) : Json :=
  .object ([("from", .string e.source), ("to", .string e.target)]
    ++ match e.label with
      | some label => [("label", .string label)]
      | none => [])

/-- A flow graph as data. -/
def toJson (g : Graph) : Json :=
  .object [("nodes", .array (g.nodes.map Node.toJson)), ("edges", .array (g.edges.map Edge.toJson))]

/-- A summary as data. -/
def Summary.toJson (s : Summary) : Json :=
  .object [("stepCount", .integer s.steps), ("branchCount", .integer s.branches),
    ("errorPathCount", .integer s.errorPaths), ("unsupportedCount", .integer s.unsupported)]

end Graph

end Flowchart
