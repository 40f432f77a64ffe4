import Flowchart.Graph.Basic
import Flowchart.Text.Order

set_option autoImplicit false

/-!
# Drafts

A flow graph while it is being drawn. Nodes are numbered as they are added; edges are recorded
without any check and may even lead to nodes that are added later. Freezing a draft checks the edges
and sorts them.

## Main definitions

* `Flowchart.Draft`: the marks of the nodes so far and the edges so far.
* `Flowchart.Draft.add`, `Flowchart.Draft.addEdge`, `Flowchart.Draft.connect`: the operations.
* `Flowchart.Draft.freeze`: the graph of a draft, or the first edge with an unknown endpoint.

## Design

A draft keeps no identifiers: the node in place `k` is `nodeId k`, so identifiers are distinct and
follow the order of the nodes by construction.
-/

namespace Flowchart

/-- What a node of a flow chart shows. -/
structure Mark where
  kind : NodeKind
  label : String
  deriving DecidableEq, Repr

/-- The identifier of the node in a place, counted from one. -/
def nodeId (place : Nat) : String :=
  "n" ++ toString place

/-- An open end of control flow: the node that control has left and the label of the edge that
leads on from there. -/
structure Entry where
  node : String
  label : Option String
  deriving DecidableEq, Repr

/-- The edges that lead from open ends to a node. -/
def link (entries : List Entry) (target : String) : List Graph.Edge :=
  entries.map fun e => ⟨e.node, target, e.label⟩

/-- A flow graph that is being drawn. -/
structure Draft where
  marks : List Mark
  edges : List Graph.Edge
  deriving DecidableEq, Repr

namespace Draft

/-- The draft without nodes. -/
def empty : Draft := ⟨[], []⟩

/-- The number of nodes of a draft. -/
def size (d : Draft) : Nat := d.marks.length

/-! ### Drawing -/

/-- The identifier of the next node to be added. -/
def nextId (d : Draft) : String :=
  nodeId (d.size + 1)

/-- A draft with one more node, whose identifier is `d.nextId`. -/
def add (d : Draft) (mark : Mark) : Draft :=
  { d with marks := d.marks ++ [mark] }

/-- A draft with one more edge. -/
def addEdge (d : Draft) (edge : Graph.Edge) : Draft :=
  { d with edges := d.edges ++ [edge] }

/-- A draft in which all open ends lead to a node. -/
def connect (d : Draft) (entries : List Entry) (target : String) : Draft :=
  { d with edges := d.edges ++ link entries target }

/-! ### Freezing -/

/-- The nodes of a draft. -/
def nodes (d : Draft) : List Graph.Node :=
  (d.marks.zipIdx 1).map fun (mark, place) => ⟨nodeId place, mark.kind, mark.label, place⟩

/-- The rank of an identifier among the nodes of a draft. -/
def rank? (d : Draft) (id : String) : Option Nat :=
  d.nodes.findIdx? fun n => n.id == id

/-- An edge that cannot be part of a graph, with its first endpoint that is no node. -/
structure DanglingEdge where
  edge : Graph.Edge
  endpoint : String
  deriving DecidableEq, Repr

/-- The message for a dangling edge names the edge and the endpoint. -/
def DanglingEdge.message (e : DanglingEdge) : String :=
  "Edge " ++ e.edge.source ++ "->" ++ e.edge.target ++ " references unknown node " ++ e.endpoint

/-- An edge with the ranks of its endpoints. -/
structure RankedEdge where
  source : Nat
  target : Nat
  edge : Graph.Edge
  deriving DecidableEq, Repr

/-- The text by which edges between the same nodes are ordered: an absent label counts as empty. -/
def RankedEdge.text (e : RankedEdge) : String :=
  e.edge.label.getD ""

/-- Edges are in order of their sources, then of their targets, then of their texts. -/
def RankedEdge.le (a b : RankedEdge) : Bool :=
  a.source < b.source || (a.source == b.source && (a.target < b.target || (a.target == b.target
    && Text.le a.text b.text)))

/-- The ranks of the endpoints of an edge, the source being looked up first. -/
def rankEdge (d : Draft) (e : Graph.Edge) : Except DanglingEdge RankedEdge :=
  match d.rank? e.source, d.rank? e.target with
  | some s, some t => .ok ⟨s, t, e⟩
  | none, _ => .error ⟨e, e.source⟩
  | some _, none => .error ⟨e, e.target⟩

/-- The graph of a draft: its nodes as they were added and its edges in order, those that compare
equal as they were added. The first edge with an unknown endpoint is an error. -/
def freeze (d : Draft) : Except DanglingEdge Graph := do
  let ranked ← d.edges.mapM d.rankEdge
  return ⟨d.nodes, (ranked.mergeSort RankedEdge.le).map RankedEdge.edge⟩

end Draft

end Flowchart
