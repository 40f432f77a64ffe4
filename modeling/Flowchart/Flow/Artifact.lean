import Flowchart.Flow.Contract
import Flowchart.Flow.Scenario
import Flowchart.Graph.Diagram
import Flowchart.Graph.Fingerprint

set_option autoImplicit false

/-!
# Artifacts

All that a document says about one contract or scenario: its graph with diagram, fingerprint and
summary.

## Main definitions

* `Flowchart.Artifact`: a documented contract or scenario.
* `Flowchart.Artifact.ofGraph`: the artifact of a graph.
* `Flowchart.Artifact.ofContract`, `Flowchart.Artifact.ofScenario`: the artifacts of a contract and
  of a scenario.
* `Flowchart.Artifact.toJson`: an artifact as data for other programs.
-/

namespace Flowchart

/-- A documented contract or scenario. -/
structure Artifact where
  ownerKind : OwnerKind
  ownerId : String
  graph : Graph
  diagram : String
  hash : String
  summary : Graph.Summary
  deriving DecidableEq, Repr

namespace Artifact

/-- The artifact of a graph and its owner. -/
def ofGraph (kind : OwnerKind) (id : String) (graph : Graph) : Artifact where
  ownerKind := kind
  ownerId := id
  graph := graph
  diagram := graph.diagram
  hash := graph.fingerprint kind id
  summary := graph.summary

/-- The artifact of a contract. -/
def ofContract (id : String) (contract : Contract) : Except Draft.DanglingEdge Artifact :=
  ofGraph .contract id <$> contract.draft.freeze

/-- The artifact of a scenario. -/
def ofScenario (id : String) (scenario : Scenario) : Except Draft.DanglingEdge Artifact :=
  ofGraph .scenario id <$> scenario.draft.freeze

/-- An artifact as data. -/
def toJson (a : Artifact) : Json :=
  .object [("ownerKind", .string a.ownerKind.name), ("ownerId", .string a.ownerId),
    ("graph", a.graph.toJson), ("diagram", .string a.diagram), ("hash", .string a.hash),
    ("summary", a.summary.toJson)]

end Artifact

end Flowchart
