import Flowchart.Document.Marker
import Flowchart.Flow.Note

set_option autoImplicit false

/-!
# Drift

Whether a document is up to date: it records the fingerprints of the present artifacts, all of them
and no others.

## Main definitions

* `Flowchart.Drift`: what is wrong with a document.
* `Flowchart.Drift.check`: the drift between artifacts and a document.
* `Flowchart.Drift.describe`: a drift in words.
-/

namespace Flowchart

/-- What is wrong with a document. -/
structure Drift where
  /-- The artifacts that the document does not record. -/
  outdated : List Artifact
  /-- The recorded fingerprints that no artifact has, each once. -/
  orphaned : List String
  deriving DecidableEq, Repr

namespace Drift

/-- The drift between artifacts and a document. -/
def check (artifacts : List Artifact) (document : String) : Drift :=
  let recorded := Marker.recorded document
  { outdated := artifacts.filter fun a => a.hash ∉ recorded
    orphaned := (recorded.filter fun h => h ∉ artifacts.map Artifact.hash).eraseDups }

/-- Whether nothing is wrong. -/
def isCurrent (d : Drift) : Bool :=
  d.outdated.isEmpty && d.orphaned.isEmpty

/-- The line for an artifact that a document does not record. -/
def outdatedLine (a : Artifact) : String :=
  a.ownerKind.name ++ " " ++ a.ownerId ++ ": documentation out of date (expected flow-hash "
    ++ a.hash ++ ")"

/-- The line for a recorded fingerprint that no artifact has. -/
def orphanedLine (hash : String) : String :=
  "recorded flow-hash " ++ hash ++ " no longer matches any contract or scenario"

/-- One line for each thing that is wrong. -/
def describe (d : Drift) : List String :=
  d.outdated.map outdatedLine ++ d.orphaned.map orphanedLine

/-- The note on the comparison of artifacts with a document. -/
def note (d : Drift) (document : String) : Note :=
  .compared (Marker.recorded document).length d.outdated.length d.orphaned.length

end Drift

end Flowchart
