import Flowchart.Tree.Object

set_option autoImplicit false

/-!
# Failure tags

A guard reports failure through calls whose first argument is an object with a `tag`. The tags of a
guard are read off its tree: a function literal is scanned itself, and an identifier leads to the
initializer of the variable of that name at the top level of the script, one step and no further.

## Main definitions

* `Flowchart.Tree.ownTag?`: the tag that a call carries.
* `Flowchart.Tree.tags`: the distinct tags in a tree, in the order of their first occurrence.
* `Flowchart.Tree.initializer?`: the initializer of a top-level variable.
* `Flowchart.Tree.guardTags`: the tags of a guard.
-/

namespace Flowchart.Tree

/-! ### Tags of calls -/

/-- The tag in an object literal: the first plain string in a pair named `tag`. -/
def objectTag? (object : Tree) : Option String :=
  object.codeChildren.findSome? fun p =>
    if p.kind = "pair" ∧ p.propertyName? = some "tag" then
      (p.child? "value").bind fun v => v.unwrap.stringValue?
    else none

/-- The tag that a tree carries if it is a call whose first argument is an object literal. -/
def ownTag? (t : Tree) : Option String :=
  if t.kind = "call_expression" then
    t.arguments.head?.bind fun a => if a.unwrap.kind = "object" then a.unwrap.objectTag? else none
  else none

/-- The distinct tags of the calls in a tree, in the order of their first occurrence. -/
def tags (t : Tree) : List String :=
  (t.preorder.filterMap ownTag?).eraseDups

/-! ### Guards -/

/-- The declaration that a top-level statement makes, itself or by exporting it. -/
def declaration? (statement : Tree) : Option Tree :=
  if statement.kind = "export_statement" then statement.child? "declaration" else some statement

/-- The declarators of the variables at the top level of a script. -/
def topDeclarators (root : Tree) : List Tree :=
  (root.codeChildren.filterMap declaration?).flatMap fun d =>
    if d.kind ∈ ["lexical_declaration", "variable_declaration"] then
      d.codeChildren.filter fun c => c.kind == "variable_declarator"
    else []

/-- The initializer of the first top-level variable of a name that has one. -/
def initializer? (root : Tree) (name : String) : Option Tree :=
  root.topDeclarators.findSome? fun d =>
    if (d.child? "name").map text = some name then d.child? "value" else none

/-- The tags of a guard in a script: those of a function literal, or those of the initializer that
an identifier leads to. A second identifier is not followed. -/
def guardTags (root guard : Tree) : List String :=
  if guard.kind = "identifier" then
    match root.initializer? guard.text with
    | some value => if value.kind = "identifier" then [] else value.tags
    | none => []
  else if guard.isFunction then guard.tags
  else []

end Flowchart.Tree
