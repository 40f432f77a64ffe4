set_option autoImplicit false

/-!
# Syntax trees

The tree that a grammar makes of a script. A node knows its kind in the grammar, whether it is a
named node or a mere token, the field of its parent that it fills, its text and its line.

## Main definitions

* `Flowchart.Tree`: a node with its children.
* `Flowchart.Tree.child?`: the child that fills a field.
* `Flowchart.Tree.codeChildren`: the named children other than comments.
* `Flowchart.Tree.preorder`: all nodes that are reached through named children.
* `Flowchart.Tree.Place`, `Flowchart.Tree.places`: nodes together with the nodes around them.

## Design

A node carries its own text, so no function on trees needs the script that the tree was made from.
Functions on a tree come in pairs, one for a node and one for a list of siblings, and recurse on
the data.
-/

namespace Flowchart

/-- What a syntax node holds besides its children. -/
structure Tree.Head where
  /-- The position of the node in the listing of its tree. -/
  row : Nat
  /-- The kind of the node in the grammar. -/
  kind : String
  /-- Whether the node is named in the grammar; the others are tokens. -/
  named : Bool
  /-- The field of the parent that the node fills. -/
  field : Option String
  /-- The line of the first character, from one. -/
  line : Nat
  /-- The script text that the node spans. -/
  text : String
  deriving DecidableEq, Repr

/-- A syntax tree. -/
inductive Tree where
  | node (head : Tree.Head) (children : List Tree)

namespace Tree

/-! ### Parts of a node -/

/-- What the root holds besides its children. -/
def head : Tree → Head
  | .node h _ => h

/-- The children of the root. -/
def children : Tree → List Tree
  | .node _ cs => cs

/-- The position of the root in the listing of its tree. -/
def row (t : Tree) : Nat := t.head.row

/-- The kind of the root. -/
def kind (t : Tree) : String := t.head.kind

/-- Whether the root is a named node. -/
def named (t : Tree) : Bool := t.head.named

/-- The line of the root. -/
def line (t : Tree) : Nat := t.head.line

/-- The text of the tree. -/
def text (t : Tree) : String := t.head.text

@[simp] theorem head_node (h : Head) (cs : List Tree) : (node h cs).head = h := rfl

@[simp] theorem children_node (h : Head) (cs : List Tree) : (node h cs).children = cs := rfl

/-- The tree of a script that holds nothing. -/
def blank : Tree :=
  .node ⟨0, "program", true, none, 1, ""⟩ []

/-- A named node that is no comment. -/
def isCode (t : Tree) : Bool :=
  t.named && t.kind != "comment"

/-- The first child that fills a field. -/
def child? (t : Tree) (field : String) : Option Tree :=
  t.children.find? fun c => c.head.field == some field

/-- The named children. -/
def namedChildren (t : Tree) : List Tree :=
  t.children.filter named

/-- The named children without the comments among them. -/
def codeChildren (t : Tree) : List Tree :=
  t.children.filter isCode

/-- The first named child that is no comment. -/
def firstCode? (t : Tree) : Option Tree :=
  t.codeChildren.head?

/-! ### Traversal -/

mutual

/-- The root and the nodes below it that are reached through named children, each before its own
children and siblings from left to right. -/
def preorder : Tree → List Tree
  | t@(.node _ cs) => t :: forestPreorder cs

/-- The preorder of the named trees among siblings, one after the other. -/
def forestPreorder : List Tree → List Tree
  | [] => []
  | c :: cs => (if c.named then c.preorder else []) ++ forestPreorder cs

end

/-- A node together with the nodes around it, the nearest first. -/
structure Place where
  tree : Tree
  around : List Tree

mutual

/-- The preorder through the children that satisfy a condition, with the nodes around each node. -/
def placesWithin (visit : Tree → Bool) (around : List Tree) : Tree → List Place
  | t@(.node _ cs) => ⟨t, around⟩ :: forestPlaces visit (t :: around) cs

/-- The places of the trees among siblings that satisfy a condition. -/
def forestPlaces (visit : Tree → Bool) (around : List Tree) : List Tree → List Place
  | [] => []
  | c :: cs =>
    (if visit c then placesWithin visit around c else []) ++ forestPlaces visit around cs

end

/-- The places of the nodes that are reached through named children. -/
def places (t : Tree) : List Place :=
  placesWithin named [] t

/-- The place of the node with a given row, if there is one. -/
def placeAt? (t : Tree) (row : Nat) : Option Place :=
  (placesWithin (fun _ => true) [] t).find? fun p => p.tree.row == row

mutual

/-- The nodes of the places through named children are the preorder. -/
theorem map_tree_placesWithin (around : List Tree) (t : Tree) :
    (placesWithin named around t).map Place.tree = t.preorder := by
  cases t with
  | node h cs => simp [placesWithin, preorder, map_tree_forestPlaces (.node h cs :: around) cs]

/-- The nodes of the places of siblings are their preorders. -/
theorem map_tree_forestPlaces (around : List Tree) (cs : List Tree) :
    (forestPlaces named around cs).map Place.tree = forestPreorder cs := by
  cases cs with
  | nil => rfl
  | cons c cs =>
    have ihc := map_tree_placesWithin around c
    have ihcs := map_tree_forestPlaces around cs
    by_cases hc : c.named = true <;> simp [forestPlaces, forestPreorder, hc, ihc, ihcs]

end

end Tree

end Flowchart
