import Flowchart.Digest.Sha256
import Flowchart.Graph.Basic
import Flowchart.Text.Spacing
import Flowchart.Text.Utf8

set_option autoImplicit false

/-!
# Fingerprints

The fingerprint of a flow graph and its owner: the hash of a text that spells both out, with labels
in normal form, so that layout does not count.

## Main definitions

* `Flowchart.Graph.canonicalText`: the text that is hashed.
* `Flowchart.Graph.fingerprint`: its hash.
-/

namespace Flowchart.Graph

/-- The line of the owner in a canonical text. -/
def ownerLine (kind : OwnerKind) (id : String) : String :=
  "owner:" ++ kind.name ++ ":" ++ id

/-- The line of a node in a canonical text. -/
def Node.canonicalLine (n : Node) : String :=
  "node:" ++ n.id ++ "|" ++ n.kind.name ++ "|" ++ Text.normalize n.label

/-- The line of an edge in a canonical text; an absent label counts as the empty one. -/
def Edge.canonicalLine (e : Edge) : String :=
  "edge:" ++ e.source ++ "->" ++ e.target ++ "|" ++ Text.normalize (e.label.getD "")

/-- The text of a flow graph and its owner that is hashed. -/
def canonicalText (kind : OwnerKind) (id : String) (g : Graph) : String :=
  "\n".intercalate
    (ownerLine kind id :: g.nodes.map Node.canonicalLine ++ g.edges.map Edge.canonicalLine)

/-- The fingerprint of a flow graph and its owner. -/
def fingerprint (kind : OwnerKind) (id : String) (g : Graph) : String :=
  Sha256.hex (Text.Utf8.encode (canonicalText kind id g))

end Flowchart.Graph
