import Flowchart.Text.Order
import Flowchart.Tree.Object

set_option autoImplicit false

/-!
# Sites

The places in a script where contracts and scenarios are defined. A definition is a call of `define`
or `scenario` in one of two forms: a name and a body, or an object that holds its own name as `id`.

## Main definitions

* `Flowchart.Site`: a definition with its name, line and variable.
* `Flowchart.Sighting`: a call that may or may not have the form of a definition.
* `Flowchart.Tree.contractSightings`, `Flowchart.Tree.scenarioSightings`: all such calls.
* `Flowchart.Tree.contractSites`, `Flowchart.Tree.scenarioSites`: the definitions.
* `Flowchart.Names`: the contracts that variables stand for.
-/

namespace Flowchart

/-- A definition in a script, with a body of some type. -/
structure Site (α : Type) where
  name : String
  body : α
  line : Nat
  binding? : Option String

/-- A call of a defining function. -/
inductive Sighting (α : Type) where
  /-- The call defines something. -/
  | site (site : Site α)
  /-- The call at this line has not the form of a definition. -/
  | unrecognized (line : Nat)

/-- The definition of a sighting, if it is one. -/
def Sighting.site? {α : Type} : Sighting α → Option (Site α)
  | .site s => some s
  | .unrecognized _ => none

namespace Tree

/-! ### Calls -/

/-- The places of the calls of a function in a script. -/
def callsOf (root : Tree) (function : String) : List Place :=
  root.places.filter fun p => p.tree.kind == "call_expression" && p.tree.callee? == some function

/-- The name and the body that a defining call gives: two arguments of which the first is a string,
or an object that has a string as its `id`. -/
def definition? (call : Tree) : Option (String × Tree) :=
  match call.arguments.map unwrap with
  | [] => none
  | first :: more =>
    match first.stringValue? with
    | some name => more.head?.map fun body => (name, body)
    | none =>
      if first.kind = "object" then (first.stringProperty? "id").map fun name => (name, first)
      else none

/-- What a defining call defines, if `body?` accepts its body. -/
def sight {α : Type} (body? : Tree → Option α) (place : Place) : Sighting α :=
  match place.tree.definition? with
  | none => .unrecognized place.tree.line
  | some (name, body) =>
    match body? body with
    | none => .unrecognized place.tree.line
    | some b => .site ⟨name, b, place.tree.line, place.binding?⟩

/-! ### Contracts and scenarios -/

/-- The body of a contract is an object literal. -/
def contractBody? (body : Tree) : Option Tree :=
  if body.kind = "object" then some body else none

/-- The flow of a scenario is its body, if that is a function, or the function in the property
`flow` of an object. A scenario need not have one. -/
def flowFunction? (body : Tree) : Option Tree :=
  if body.isFunction then some body
  else if body.kind = "object" then body.functionProperty? "flow"
  else none

/-- The calls of `define` in a script. -/
def contractSightings (root : Tree) : List (Sighting Tree) :=
  (root.callsOf "define").map (sight contractBody?)

/-- The calls of `scenario` in a script. -/
def scenarioSightings (root : Tree) : List (Sighting (Option Tree)) :=
  (root.callsOf "scenario").map (sight fun body => some body.flowFunction?)

/-- The contracts of a script, in preorder. -/
def contractSites (root : Tree) : List (Site Tree) :=
  root.contractSightings.filterMap Sighting.site?

/-- The scenarios of a script, in preorder. -/
def scenarioSites (root : Tree) : List (Site (Option Tree)) :=
  root.scenarioSightings.filterMap Sighting.site?

end Tree

/-! ### Variables -/

/-- Which contract each variable stands for; a later binding of a variable replaces an earlier one.
-/
abbrev Names := List (String × String)

namespace Names

/-- The variables of contract sites and the names of the contracts. -/
def ofSites (sites : List (Site Tree)) : Names :=
  sites.filterMap fun s => s.binding?.map fun v => (v, s.name)

/-- The contract that a variable stands for: that of its last binding. -/
def contract? (names : Names) (variableName : String) : Option String :=
  (names.reverse.find? fun b => b.1 == variableName).map Prod.snd

/-- Each variable once with its contract, sorted by variable. -/
def sorted (names : Names) : List (String × String) :=
  let boundNames := (names.map Prod.fst).eraseDups.mergeSort Text.le
  boundNames.filterMap fun v => (names.contract? v).map fun c => (v, c)

end Names

end Flowchart
