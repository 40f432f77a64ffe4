import Flowchart.Proofs.Graph.Walk

set_option relaxedAutoImplicit false
set_option autoImplicit false

/-!
# Behaviors

What a part of a program can do, told without any chart: control comes in with a pending edge label,
emits a word, and then goes on, returns or fails. Conditions are not looked at, so a part may have
many behaviors, and a loop may run any number of times.

## Main definitions

* `Flowchart.Completion`: how control leaves a part.
* `Flowchart.Behavior`: the words and completions of a part for each pending label.
* `Flowchart.spell`, `Flowchart.pendingAfter`: nodes that are passed one behind the other.
* `Flowchart.Behavior.pass`, `stop`, `andThen`, `leaving`, `returning`, `branch`, `loop`, `settle`:
  the behaviors of composed parts.
-/

namespace Flowchart

/-- How control leaves a part of a program. The label of the edge to come is kept, if there is one.
-/
inductive Completion where
  /-- Control goes on behind the part. -/
  | goesOn (pending : Option String)
  /-- Control returns from the function around the part. -/
  | returns (pending : Option String)
  /-- Control ends in an error. -/
  | fails
  deriving DecidableEq

namespace Completion

/-- Whether nothing behind the part is run. -/
def Final : Completion → Prop
  | goesOn _ => False
  | returns _ => True
  | fails => True

/-- The completion of a part behind which control returns. -/
def leave : Completion → Completion
  | goesOn l => returns l
  | returns l => returns l
  | fails => fails

/-- The completion of a part behind which returning control goes on. -/
def proceed : Completion → Completion
  | goesOn l => goesOn l
  | returns l => goesOn l
  | fails => fails

end Completion

/-- What a part of a program can do: for each pending label the words that it emits together with
the completions. -/
abbrev Behavior := Option String → Word → Completion → Prop

/-! ## Rows of nodes -/

/-- The word of nodes one behind the other: the first is entered by the pending label, the others
without a label. -/
def spell (pending : Option String) : List Mark → Word
  | [] => []
  | m :: ms => (pending, m) :: spell none ms

/-- The pending label behind a row of nodes: the one before it if the row is empty. -/
def pendingAfter (pending : Option String) : List Mark → Option String
  | [] => pending
  | _ :: _ => none

/-- No row of nodes leaves a label behind that was not there before. -/
@[simp] lemma pendingAfter_none (ms : List Mark) : pendingAfter none ms = none := by
  cases ms <;> rfl

/-- Rows of nodes are spelled one behind the other. -/
lemma spell_append (l : Option String) (ms ns : List Mark) :
    spell l (ms ++ ns) = spell l ms ++ spell (pendingAfter l ms) ns := by
  induction ms generalizing l with
  | nil => rfl
  | cons m ms ih =>
    rw [List.cons_append, spell, spell, ih, pendingAfter_none, List.cons_append]
    rfl

/-- The label behind two rows is the one behind the second. -/
lemma pendingAfter_append (l : Option String) (ms ns : List Mark) :
    pendingAfter l (ms ++ ns) = pendingAfter (pendingAfter l ms) ns := by
  cases ms <;> cases ns <;> rfl

namespace Behavior

/-- Passes a row of nodes. -/
def pass (marks : List Mark) : Behavior := fun l w o =>
  w = spell l marks ∧ o = .goesOn (pendingAfter l marks)

/-- Comes to a node and fails there. -/
def stop (m : Mark) : Behavior := fun l w o =>
  w = [(l, m)] ∧ o = .fails

/-- Does one thing and, if control goes on, another. -/
def andThen (first second : Behavior) : Behavior := fun l w o =>
  (first l w o ∧ o.Final) ∨ ∃ u m v, first l u (.goesOn m) ∧ second m v o ∧ w = u ++ v

/-- Does something and returns. -/
def leaving (b : Behavior) : Behavior := fun l w o =>
  ∃ o', b l w o' ∧ o'.leave = o

/-- Returns at once, by an edge with a label. -/
def returning (label : String) : Behavior := fun _ w o =>
  w = [] ∧ o = .returns (some label)

/-- Does one of two things behind a decision. -/
def branch (label : String) (whenTrue whenFalse : Behavior) : Behavior := fun l w o =>
  ∃ v, w = (l, ⟨.decision, label⟩) :: v ∧
    (whenTrue (some "true") v o ∨ whenFalse (some "false") v o)

/-- The word of one round of a loop: that of its body and the way back to the head. -/
def lap (head : Mark) (round : Word × Option String) : Word :=
  round.1 ++ [(some (round.2.getD "next"), head)]

/-- Comes to a loop, runs its body any number of times, and either goes on from the loop or ends in
a further run of the body. -/
def loop (label : String) (body : Behavior) : Behavior := fun l w o =>
  ∃ rounds : List (Word × Option String),
    (∀ round ∈ rounds, body (some "iterate") round.1 (.goesOn round.2)) ∧
    ∃ v, w = (l, ⟨.loop, label⟩) :: (rounds.flatMap (lap ⟨.loop, label⟩) ++ v) ∧
      ((v = [] ∧ o = .goesOn (some "done")) ∨ (body (some "iterate") v o ∧ o.Final))

/-- Goes on wherever control goes on or returns. If it never does, it goes on at once by an edge
with a label of its own. -/
def settle (label : Option String) (b : Behavior) : Behavior := fun l w o =>
  (∃ o', b l w o' ∧ o'.proceed = o) ∨
    ((∀ v o', b l v o' → o' = .fails) ∧ w = [] ∧ o = .goesOn label)

end Behavior

end Flowchart
