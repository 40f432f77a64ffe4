import Flowchart.Text.Utf8
import Flowchart.Tree.Basic

set_option autoImplicit false

/-!
# Trees from rows

The flat form of a syntax tree: one row for each node, every node before its children, with the
depth of the node and the bytes of the script that it spans.

## Main definitions

* `Flowchart.Tree.Row`: one node of a listing.
* `Flowchart.Tree.ofRows`: the tree of a listing over the bytes of its script.
* `Flowchart.Tree.ofListing`: the tree of a listing that is given as text.

## Design

The rows are read from the last to the first. All trees that are complete but have no parent yet
are kept with their depths; a row takes the deeper ones at the front as its children.
-/

namespace Flowchart.Tree

/-- One node of a listing. -/
structure Row where
  /-- The distance of the node from the root. -/
  depth : Nat
  kind : String
  named : Bool
  field : Option String
  /-- The position of the first byte of the node. -/
  start : Nat
  /-- The position after the last byte of the node. -/
  stop : Nat
  deriving DecidableEq, Repr

/-- The row of a node whose kind is written down; a tilde before the kind marks a token. -/
def Row.ofKind (depth : Nat) (kind : String) (start stop : Nat) (field : Option String) : Row :=
  match kind.toList with
  | '~' :: cs => ⟨depth, String.ofList cs, false, field, start, stop⟩
  | _ => ⟨depth, kind, true, field, start, stop⟩

/-- The bytes of a script between two positions; none if the second is not greater. -/
def slice (script : List UInt8) (start stop : Nat) : List UInt8 :=
  (script.drop start).take (stop - start)

/-- The line of a position: one more than the line feeds before it. -/
def lineAt (script : List UInt8) (position : Nat) : Nat :=
  (script.take position).count 0x0a + 1

/-- What the node of a row holds besides its children. -/
def Row.head (script : List UInt8) (row : Row) (index : Nat) : Head where
  row := index
  kind := row.kind
  named := row.named
  field := row.field
  line := lineAt script row.start
  text := Text.Utf8.decodeLossy (slice script row.start row.stop)

/-- The pending trees after a row: the row becomes the parent of the deeper trees at the front. -/
def adopt (script : List UInt8) (entry : Row × Nat) (pending : List (Nat × Tree)) :
    List (Nat × Tree) :=
  let below := pending.takeWhile fun p => entry.1.depth < p.1
  (entry.1.depth, .node (entry.1.head script entry.2) (below.map Prod.snd))
    :: pending.drop below.length

/-- The tree of a listing; `none` if the listing is empty. -/
def ofRows (script : List UInt8) (rows : List Row) : Option Tree :=
  (rows.zipIdx.foldr (adopt script) []).head?.map Prod.snd

/-! ### Listings as text -/

/-- The row that a line of a listing spells: the depth, the kind, the two positions and possibly the
field, with a space between them. -/
def Row.ofLine? (line : String) : Option Row :=
  match line.splitOn " " with
  | depth :: kind :: start :: stop :: field => do
    return .ofKind (← depth.toNat?) kind (← start.toNat?) (← stop.toNat?) field.head?
  | _ => none

/-- The tree of a listing with one row on each line; lines that spell no row are passed over. -/
def ofListing (script : List UInt8) (listing : String) : Option Tree :=
  ofRows script ((listing.splitOn "\n").filterMap Row.ofLine?)

end Flowchart.Tree
