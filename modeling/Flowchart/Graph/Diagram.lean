import Flowchart.Graph.Basic
import Flowchart.Text.Blank

set_option autoImplicit false

/-!
# Diagrams

The text of a flow graph as a fenced diagram block, one line for each node and each edge.

## Main definitions

* `Flowchart.Diagram.escape`: a label between quotation marks.
* `Flowchart.Diagram.brackets`: the brackets that give a node its shape.
* `Flowchart.Graph.diagram`: the diagram of a flow graph.
-/

namespace Flowchart

namespace Diagram

/-- The written form of one character of a label: quotation marks and backslashes take a backslash,
a line feed is a line break. -/
def escapeChar (c : Char) : List Char :=
  if c = '\\' ∨ c = '"' then ['\\', c]
  else if c = '\n' then "<br/>".toList
  else [c]

/-- A label with its characters escaped and no blanks at its ends. -/
def escape (label : String) : String :=
  String.ofList (Text.trimBlank (label.toList.flatMap escapeChar))

/-- The brackets around the label of a node: terminals are rounded, choices are rhombs, unsupported
code has double walls, and all else is a box. -/
def brackets : NodeKind → String × String
  | .start | .finish | .error => ("([", "])")
  | .decision | .loop | .precondition => ("\x7b", "\x7d")
  | .unsupported => ("[[", "]]")
  | .action | .postcondition | .invariant => ("[", "]")

/-- The line of a node. -/
def nodeLine (n : Graph.Node) : String :=
  "  " ++ n.id ++ (brackets n.kind).1 ++ "\"" ++ escape n.label ++ "\"" ++ (brackets n.kind).2

/-- The label of an edge in its line; an empty one is left out. -/
def edgeLabel (label : Option String) : String :=
  match label with
  | none => ""
  | some text => if text = "" then "" else "|\"" ++ escape text ++ "\"|"

/-- The line of an edge. -/
def edgeLine (e : Graph.Edge) : String :=
  "  " ++ e.source ++ " -->" ++ edgeLabel e.label ++ " " ++ e.target

/-- The line that opens a diagram block. -/
def opening : String := "```mermaid"

/-- The line that closes a diagram block. -/
def closing : String := "```"

end Diagram

/-- The lines of the diagram of a flow graph. -/
def Graph.diagramLines (g : Graph) : List String :=
  [Diagram.opening, "flowchart TD"] ++ g.nodes.map Diagram.nodeLine
    ++ g.edges.map Diagram.edgeLine ++ [Diagram.closing]

/-- The diagram of a flow graph: the nodes and then the edges, in their order. -/
def Graph.diagram (g : Graph) : String :=
  "\n".intercalate g.diagramLines

end Flowchart
