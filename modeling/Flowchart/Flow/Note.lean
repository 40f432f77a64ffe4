import Flowchart.Flow.Artifact
import Flowchart.Path

set_option autoImplicit false

/-!
# Notes

What a verbose run tells about the reading of scripts and the checking of documents.

## Main definitions

* `Flowchart.Note`: the events that are told.
* `Flowchart.Note.text`: a note behind the name of the part of the program that it comes from.
-/

namespace Flowchart

/-- An event that a verbose run tells. -/
inductive Note where
  /-- A call of `define` has not the form of a definition. -/
  | contractSkipped (line : Nat)
  /-- A call of `scenario` has not the form of a definition. -/
  | scenarioSkipped (line : Nat)
  /-- All contracts of a script are found. -/
  | contractsFound (count : Nat) (path : Path)
  /-- All scenarios of a script are found. -/
  | scenariosFound (count : Nat) (path : Path)
  /-- A contract has no function as its transition. -/
  | transitionUnreadable (id : String)
  /-- The flow of a scenario is no list of steps and no statements. -/
  | flowUnreadable (id : String)
  /-- A scenario has no flow. -/
  | flowMissing (id : String)
  /-- An artifact is complete. -/
  | built (artifact : Artifact)
  /-- There is no grammar for a file. -/
  | unsupportedFile (path : Path)
  /-- A document has been compared with artifacts. -/
  | compared (recorded outdated orphaned : Nat)

namespace Note

/-- The number of leading characters of a fingerprint that a note shows. -/
def hashWidth : Nat := 12

/-- The part of the program that a note comes from. -/
def origin : Note → String
  | .contractSkipped _ | .scenarioSkipped _ | .contractsFound _ _ | .scenariosFound _ _ =>
    "flowdoc.parser.locator"
  | .transitionUnreadable _ => "flowdoc.flow.contract"
  | .flowUnreadable _ => "flowdoc.flow.scenario"
  | .flowMissing _ | .unsupportedFile _ => "flowdoc.flow"
  | .built _ => "flowdoc.flow.artifact"
  | .compared _ _ _ => "flowdoc.core.drift"

/-- What a note says. -/
def message : Note → String
  | .contractSkipped line =>
    "Skipping define() at line " ++ toString line ++ ": unrecognized shape"
  | .scenarioSkipped line =>
    "Skipping scenario() at line " ++ toString line ++ ": unrecognized shape"
  | .contractsFound count path =>
    "Found " ++ toString count ++ " contract(s) in " ++ path.toString
  | .scenariosFound count path =>
    "Found " ++ toString count ++ " scenario(s) in " ++ path.toString
  | .transitionUnreadable id => "Contract " ++ id ++ ": transition is not function-like"
  | .flowUnreadable id => "Scenario " ++ id ++ ": flow body is not an array or block"
  | .flowMissing id => "Scenario " ++ id ++ " has no flow function; skipped"
  | .built a =>
    "Built " ++ a.ownerKind.name ++ " flow " ++ a.ownerId ++ ": "
      ++ toString a.graph.nodes.length ++ " nodes, " ++ toString a.graph.edges.length
      ++ " edges, hash " ++ String.ofList (a.hash.toList.take hashWidth)
  | .unsupportedFile path => "Unsupported file type: " ++ path.toString
  | .compared recorded outdated orphaned =>
    "Drift check: " ++ toString recorded ++ " recorded, " ++ toString outdated ++ " outdated, "
      ++ toString orphaned ++ " orphaned"

/-- A note behind its origin. -/
def text (n : Note) : String :=
  n.origin ++ ": " ++ n.message

end Note

end Flowchart
