import Flowchart.Document.Marker
import Flowchart.Flow.Artifact

set_option autoImplicit false

/-!
# Documents

The text that documents artifacts: for each one a heading and a section with its fingerprint, its
diagram and its summary.

## Main definitions

* `Flowchart.Artifact.heading`, `Flowchart.Artifact.documentSection`: the parts of a document that
  belong to one artifact.
* `Flowchart.Document.render`: a document.
-/

namespace Flowchart

/-- The line that warns of code that a chart does not follow; there is none if all is followed. -/
def Graph.Summary.warning (s : Graph.Summary) : List String :=
  if 0 < s.unsupported then
    ["", "> **Warning:** " ++ toString s.unsupported
      ++ " construct(s) could not be analyzed and are shown as unsupported nodes."]
  else []

/-- The rows of the table of a summary. -/
def Graph.Summary.table (s : Graph.Summary) : List String :=
  ["| Metric | Value |",
    "|---|---|",
    "| Steps | " ++ toString s.steps ++ " |",
    "| Branches | " ++ toString s.branches ++ " |",
    "| Error paths | " ++ toString s.errorPaths ++ " |",
    "| Unsupported | " ++ toString s.unsupported ++ " |"]

namespace Artifact

/-- The heading of an artifact. -/
def heading (a : Artifact) : String :=
  "## " ++ a.ownerKind.title ++ ": `" ++ a.ownerId ++ "`"

/-- The lines of the section of an artifact. The last one is empty. -/
def sectionLines (a : Artifact) : List String :=
  [Marker.render a.hash, "<details>", "<summary>Flow diagram</summary>", "", a.diagram, "",
    "</details>", "", "#### Flow summary", ""] ++ a.summary.table ++ a.summary.warning ++ [""]

/-- The section of an artifact. -/
def documentSection (a : Artifact) : String :=
  "\n".intercalate a.sectionLines

/-- The lines of an artifact in a document. -/
def documentLines (a : Artifact) : List String :=
  [a.heading, "", a.documentSection]

end Artifact

namespace Document

/-- The title of a document that is given none. -/
def defaultTitle : String := "Flows"

/-- The document of artifacts under a title. -/
def render (title : String) (artifacts : List Artifact) : String :=
  "\n".intercalate (["# " ++ title, ""] ++ artifacts.flatMap Artifact.documentLines)

end Document

end Flowchart
