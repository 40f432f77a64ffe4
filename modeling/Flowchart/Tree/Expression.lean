import Flowchart.Tree.Basic

set_option autoImplicit false

/-!
# Expressions

Reading expressions off their syntax trees: the value inside parentheses and type assertions,
string literals, function literals and calls.

## Main definitions

* `Flowchart.Tree.peel`: the tree inside nested wrappers.
* `Flowchart.Tree.unwrap`, `Flowchart.Tree.stripParens`: the two kinds of peeling.
* `Flowchart.Tree.stringValue?`: the text of a string literal.
* `Flowchart.Tree.arguments`, `Flowchart.Tree.callee?`: the parts of a call.
* `Flowchart.Tree.Place.binding?`: the variable that a place is bound to.
-/

namespace Flowchart.Tree

/-! ### Wrappers -/

/-- The end of a wrapper's children at which the wrapped tree stands. -/
inductive Side where
  | first
  | last
  deriving DecidableEq, Repr

mutual

/-- The tree inside all wrappers around it, where `side` tells which kinds are wrappers. A wrapper
without code children is not peeled. -/
def peel (side : String → Option Side) : Tree → Tree
  | t@(.node h cs) =>
    match side h.kind with
    | none => t
    | some .first => (peelFirst? side cs).getD t
    | some .last => (peelLast? side cs).getD t

/-- The first code tree among siblings, peeled. -/
def peelFirst? (side : String → Option Side) : List Tree → Option Tree
  | [] => none
  | c :: cs => if c.isCode then some (c.peel side) else peelFirst? side cs

/-- The last code tree among siblings, peeled. -/
def peelLast? (side : String → Option Side) : List Tree → Option Tree
  | [] => none
  | c :: cs => peelLast? side cs <|> if c.isCode then some (c.peel side) else none

end

/-- The expressions that have the value of another one. A prefix assertion holds its type before
the value, the others hold the value first. -/
def valueSide (kind : String) : Option Side :=
  if kind = "type_assertion" then some .last
  else if kind ∈ ["parenthesized_expression", "as_expression", "satisfies_expression"] then
    some .first
  else none

/-- The parentheses alone. -/
def parenSide (kind : String) : Option Side :=
  if kind = "parenthesized_expression" then some .first else none

/-- The expression inside parentheses and type assertions. -/
def unwrap (t : Tree) : Tree :=
  t.peel valueSide

/-- The expression inside parentheses. -/
def stripParens (t : Tree) : Tree :=
  t.peel parenSide

theorem peelFirst?_eq (side : String → Option Side) (cs : List Tree) :
    peelFirst? side cs = (cs.filter isCode).head?.map (peel side) := by
  induction cs with
  | nil => simp [peelFirst?]
  | cons c cs ih => by_cases h : c.isCode = true <;> simp [peelFirst?, h, ih]

theorem peelLast?_eq (side : String → Option Side) (cs : List Tree) :
    peelLast? side cs = (cs.filter isCode).getLast?.map (peel side) := by
  induction cs with
  | nil => simp [peelLast?]
  | cons c cs ih =>
    by_cases h : c.isCode = true
    · rcases hcs : cs.filter isCode with _ | ⟨d, ds⟩ <;>
        simp [peelLast?, h, ih, hcs, List.getLast?_cons]
    · simp [peelLast?, h, ih]

/-! ### Literals -/

/-- The kinds of function literals. -/
def functionKinds : List String :=
  ["arrow_function", "function", "function_expression"]

/-- Whether a tree is a function literal. -/
def isFunction (t : Tree) : Bool :=
  t.kind ∈ functionKinds

/-- The characters between two equal quotes. -/
def unquoted? : List Char → Option (List Char)
  | [] => none
  | q :: cs =>
    if (q = '\'' ∨ q = '"') ∧ cs.getLast? = some q then some cs.dropLast else none

/-- The text between the quotes of a plain string literal; escapes in it are left as they are. -/
def stringValue? (t : Tree) : Option String :=
  if t.kind = "string" then (unquoted? t.text.toList).map String.ofList else none

/-! ### Calls and bindings -/

/-- The arguments of a call. -/
def arguments (call : Tree) : List Tree :=
  match call.child? "arguments" with
  | some args => args.codeChildren
  | none => []

/-- The text of a tree that is a plain identifier. -/
def identifier? (t : Tree) : Option String :=
  if t.kind = "identifier" then some t.text else none

/-- The name of a call's target, if it is a plain identifier. -/
def callee? (call : Tree) : Option String :=
  (call.child? "function").bind identifier?

/-- The elements of an array literal, none if there is no literal. -/
def elements (array : Option Tree) : List Tree :=
  match array with
  | some t => t.codeChildren
  | none => []

/-- The variable of the nearest declarator around a place, if it declares a plain identifier. -/
def Place.binding? (p : Place) : Option String :=
  (p.around.find? fun t => t.kind == "variable_declarator").bind fun declarator =>
    (declarator.child? "name").bind identifier?

end Flowchart.Tree
