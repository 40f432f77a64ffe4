import Flowchart.Flow.Form
import Flowchart.Flow.Steps
import Flowchart.Proofs.Flow.Behavior

set_option relaxedAutoImplicit false
set_option autoImplicit false

/-!
# Runs of statements

What the statements of a script do, told by rules on their syntax trees and without any chart. A run
starts with a pending edge label, emits a word, and goes on, returns or fails. Conditions are not
looked at: a choice runs either side, and a loop runs its body any number of times.

## Main definitions

* `Flowchart.Setting`: the transition of a contract or the flow of a scenario.
* `Flowchart.Run`: the runs of one statement.
* `Flowchart.RunAll`: the runs of statements one behind the other.
* `Flowchart.Setting.Leaves`: how control gets behind the body of a function.

## Design

The rules name the kinds of statements as the grammar does, so that they can be read against the
grammar. A part of a statement that is not there is the empty list of statements, which emits
nothing and goes on.
-/

namespace Flowchart

/-! ## Parts of statements -/

/-- The kind of the statements that are loops of a form. -/
def LoopForm.kind : LoopForm → String
  | .counting => "for_statement"
  | .traversing => "for_in_statement"
  | .testFirst => "while_statement"
  | .testLast => "do_statement"

namespace Tree

/-- The statements that do nothing at all. -/
def blankKinds : List String := ["comment", "empty_statement"]

/-- The statements whose control flow is not followed. -/
def untracedKinds : List String :=
  ["switch_statement", "try_statement", "break_statement", "continue_statement"]

/-- The statements that declare variables. -/
def declarationKinds : List String := ["lexical_declaration", "variable_declaration"]

/-- The statements that are run by rules of their own. All others are plain. -/
def controlKinds : List String :=
  blankKinds ++ untracedKinds ++ ["statement_block", "if_statement", "for_statement",
    "for_in_statement", "while_statement", "do_statement", "return_statement", "throw_statement"]

/-- What a choice runs if its condition is false: its alternative, or the first statement in it if
it is an else clause. -/
def alternative? (t : Tree) : Option Tree :=
  (t.child? "alternative").bind fun a => if a.kind = "else_clause" then a.firstCode? else some a

/-- The actions for the steps in an expression. -/
def stepMarks (names : Names) (e : Tree) : List Mark :=
  (e.stepLabels names).map fun label => ⟨.action, label⟩

end Tree

/-! ## Rules -/

/-- Where statements run. -/
inductive Setting where
  /-- In the transition of a contract. -/
  | contract
  /-- In the flow of a scenario, in a script whose variables stand for contracts. -/
  | scenario (names : Names)

mutual

/-- The runs of a statement: `Run s t l w o` says that in the setting `s` the statement `t`, entered
with the pending label `l`, may emit the word `w` and end with the completion `o`. -/
inductive Run : Setting → Tree → Option String → Word → Completion → Prop where
  | blank {s : Setting} {t : Tree} {l : Option String} :
    t.kind ∈ Tree.blankKinds → Run s t l [] (.goesOn l)
  | block {s : Setting} {t : Tree} {l : Option String} {w : Word} {o : Completion} :
    t.kind = "statement_block" → RunAll s t.codeChildren l w o → Run s t l w o
  | whenTrue {s : Setting} {t : Tree} {l : Option String} {w : Word} {o : Completion} :
    t.kind = "if_statement" → RunAll s (t.child? "consequence").toList (some "true") w o →
    Run s t l ((l, ⟨.decision, t.branchLabel⟩) :: w) o
  | whenFalse {s : Setting} {t : Tree} {l : Option String} {w : Word} {o : Completion} :
    t.kind = "if_statement" → RunAll s t.alternative?.toList (some "false") w o →
    Run s t l ((l, ⟨.decision, t.branchLabel⟩) :: w) o
  /-- The body of a loop is run for each round and goes on each time, back to the loop. -/
  | loopDone {s : Setting} {t : Tree} {l : Option String} (form : LoopForm)
      (rounds : List (Word × Option String)) :
    t.kind = form.kind →
    (∀ round ∈ rounds,
      RunAll s (t.child? "body").toList (some "iterate") round.1 (.goesOn round.2)) →
    Run s t l ((l, ⟨.loop, t.loopLabel form⟩) ::
      rounds.flatMap (Behavior.lap ⟨.loop, t.loopLabel form⟩)) (.goesOn (some "done"))
  /-- Behind some rounds the body of a loop returns or fails. -/
  | loopLeft {s : Setting} {t : Tree} {l : Option String} {v : Word} {o : Completion}
      (form : LoopForm) (rounds : List (Word × Option String)) :
    t.kind = form.kind →
    (∀ round ∈ rounds,
      RunAll s (t.child? "body").toList (some "iterate") round.1 (.goesOn round.2)) →
    RunAll s (t.child? "body").toList (some "iterate") v o → o.Final →
    Run s t l ((l, ⟨.loop, t.loopLabel form⟩) ::
      (rounds.flatMap (Behavior.lap ⟨.loop, t.loopLabel form⟩) ++ v)) o
  | fail {s : Setting} {t : Tree} {l : Option String} :
    t.kind = "throw_statement" → Run s t l [(l, ⟨.error, t.failLabel⟩)] .fails
  | untraced {s : Setting} {t : Tree} {l : Option String} :
    t.kind ∈ Tree.untracedKinds →
    Run s t l [(l, ⟨.unsupported, "unsupported: " ++ t.kind⟩)] (.goesOn none)
  /-- In a contract every plain statement is an action. -/
  | action {t : Tree} {l : Option String} :
    t.kind ∉ Tree.controlKinds → Run .contract t l [(l, ⟨.action, t.caption⟩)] (.goesOn none)
  /-- In a contract returning is an action. -/
  | actionLeave {t : Tree} {l : Option String} :
    t.kind = "return_statement" →
    Run .contract t l [(l, ⟨.action, Tree.captioned "return" t.firstCode?⟩)] (.returns none)
  | declaration {names : Names} {t : Tree} {l : Option String} :
    t.kind ∈ Tree.declarationKinds → Run (.scenario names) t l [] (.goesOn l)
  /-- In a scenario an expression emits its steps. -/
  | steps {names : Names} {t e : Tree} {l : Option String} :
    t.kind = "expression_statement" → t.firstCode? = some e →
    Run (.scenario names) t l (spell l (e.stepMarks names))
      (.goesOn (pendingAfter l (e.stepMarks names)))
  | noExpression {names : Names} {t : Tree} {l : Option String} :
    t.kind = "expression_statement" → t.firstCode? = none → Run (.scenario names) t l [] (.goesOn l)
  /-- In a scenario a returned expression emits its steps. -/
  | stepsLeave {names : Names} {t e : Tree} {l : Option String} :
    t.kind = "return_statement" → t.firstCode? = some e →
    Run (.scenario names) t l (spell l (e.stepMarks names))
      (.returns (pendingAfter l (e.stepMarks names)))
  | leave {names : Names} {t : Tree} {l : Option String} :
    t.kind = "return_statement" → t.firstCode? = none → Run (.scenario names) t l [] (.returns l)
  /-- In a scenario no other plain statement has a meaning. -/
  | other {names : Names} {t : Tree} {l : Option String} :
    t.kind ∉ Tree.controlKinds → t.kind ∉ Tree.declarationKinds → t.kind ≠ "expression_statement" →
    Run (.scenario names) t l [(l, ⟨.unsupported, "unsupported: " ++ t.kind⟩)] (.goesOn none)

/-- The runs of statements one behind the other, for as long as control goes on. -/
inductive RunAll : Setting → List Tree → Option String → Word → Completion → Prop where
  | nil {s : Setting} {l : Option String} : RunAll s [] l [] (.goesOn l)
  | next {s : Setting} {t : Tree} {ts : List Tree} {l m : Option String} {u v : Word}
      {o : Completion} :
    Run s t l u (.goesOn m) → RunAll s ts m v o → RunAll s (t :: ts) l (u ++ v) o
  | halt {s : Setting} {t : Tree} {ts : List Tree} {l : Option String} {w : Word} {o : Completion} :
    Run s t l w o → o.Final → RunAll s (t :: ts) l w o

end

/-! ## Function bodies -/

/-- How control gets behind the body of a function: it comes to the end of the body or returns, with
a word and a pending label. If all runs of the body fail, it gets there at once by a label for that
case. -/
def Setting.Leaves (s : Setting) (body : Tree) (label : Option String) (w : Word)
    (m : Option String) : Prop :=
  Run s body none w (.goesOn m) ∨ Run s body none w (.returns m) ∨
    ((∀ v o, Run s body none v o → o = .fails) ∧ w = [] ∧ m = label)

end Flowchart
