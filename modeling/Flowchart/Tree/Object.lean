import Flowchart.Tree.Expression

set_option autoImplicit false

/-!
# Object literals

The properties of an object literal by name, and the values that a property can have where a
contract or a scenario is read.

## Main definitions

* `Flowchart.Tree.propertyName?`: the name under which an object literal holds a child.
* `Flowchart.Tree.properties`: the properties of one name, in order.
* `Flowchart.Tree.propertyValue?`, `Flowchart.Tree.arrayProperty?`,
  `Flowchart.Tree.stringProperty?`, `Flowchart.Tree.functionProperty?`: the value of a property
  in general and in three special forms.
-/

namespace Flowchart.Tree

/-- The name that a property key spells: that of an identifier, or the text of a string. -/
def keyName? (key : Tree) : Option String :=
  if key.kind ∈ ["property_identifier", "identifier"] then some key.text else key.stringValue?

/-- The name of a pair or a method in an object literal. -/
def propertyName? (property : Tree) : Option String :=
  if property.kind = "pair" then (property.child? "key").bind keyName?
  else if property.kind = "method_definition" then (property.child? "name").bind keyName?
  else none

/-- The properties of an object literal that have a name. -/
def properties (object : Tree) (name : String) : List Tree :=
  object.codeChildren.filter fun p => p.propertyName? == some name

/-- The value in the first pair of a name. -/
def propertyValue? (object : Tree) (name : String) : Option Tree :=
  ((object.properties name).find? fun p => p.kind == "pair").bind (child? · "value")

/-- The value of a property that is an array literal. -/
def arrayProperty? (object : Tree) (name : String) : Option Tree :=
  (object.propertyValue? name).filter fun v => v.kind == "array"

/-- The text of a property that is a plain string, possibly wrapped. -/
def stringProperty? (object : Tree) (name : String) : Option String :=
  (object.propertyValue? name).bind fun v => v.unwrap.stringValue?

/-- The function that one property holds: a method is its own function, a pair may have a function
literal as its value. -/
def ownFunction? (property : Tree) : Option Tree :=
  if property.kind = "method_definition" then some property
  else (property.child? "value").filter isFunction

/-- The function in the first property of a name that holds one. -/
def functionProperty? (object : Tree) (name : String) : Option Tree :=
  (object.properties name).findSome? ownFunction?

end Flowchart.Tree
