import Flowchart.Flow.Artifact
import Flowchart.Proofs.Flow.Chart
import Flowchart.Proofs.Flow.Precondition
import Flowchart.Proofs.Flow.Statement

set_option relaxedAutoImplicit false
set_option autoImplicit false

/-!
# The flow of contracts

The chart of a contract reads exactly the words of its preconditions, of the runs of its transition,
and of its postconditions and invariants.

## Main definitions

* `Flowchart.Contract.opening`: the word up to the transition.
* `Flowchart.Contract.checkMarks`: the checks behind the transition.

## Main results

* `Flowchart.Contract.contractChart_exact`: the words of the chart of a contract.
-/

namespace Flowchart

namespace Contract

/-- The node of the transition. -/
def transitionMark : Mark :=
  ⟨.action, "transition"⟩

/-- The word of the preconditions, if they hold, and of the transition behind them. -/
def opening (c : Contract) : Word :=
  passWord none 1 c.guards.length ++ [(passLabel none c.guards.length, transitionMark)]

/-- The checks behind the transition: the postconditions and then the invariants. -/
def checkMarks (c : Contract) : List Mark :=
  ((List.range c.postconditions).map fun i => ⟨.postcondition, "post." ++ toString (i + 1)⟩) ++
    (List.range c.invariants).map fun i => ⟨.invariant, "invariant." ++ toString (i + 1)⟩

/-! ## The parts of a contract -/

/-- What a contract draws up to its transition. -/
def front (c : Contract) : Drawing :=
  (Drawing.guards c.guards 1).andThen (.mark transitionMark)

/-- What a contract draws behind its transition. -/
def back (c : Contract) : Drawing :=
  (Drawing.settle (some "success") (.transition c.transition)).andThen
    ((Drawing.checks .postcondition "post" c.postconditions).andThen
      ((Drawing.checks .invariant "invariant" c.invariants).andThen .skip))

/-- A contract is drawn up to its transition and then behind it. -/
lemma drawing_eq (c : Contract) : Drawing.contract c = c.front.andThen c.back := by
  funext size entries
  simp [Drawing.contract, Drawing.sequence, Drawing.guards, Drawing.andThen, front, back,
    transitionMark, Nat.add_assoc]

/-- The part up to the transition is left by its transition. -/
lemma open_front (c : Contract) : c.front.Open :=
  (Drawing.open_guards c.guards 1).andThen (Drawing.open_mark transitionMark)

/-- What the part up to the transition does: the preconditions fail, or control comes to the
transition. -/
def frontBehavior (c : Contract) : Behavior :=
  (Behavior.guards c.guards 1).andThen (.pass [transitionMark])

/-- The part up to the transition realizes what it does. -/
lemma realizes_front (c : Contract) : c.front.Realizes c.frontBehavior :=
  (Drawing.Realizes.guards c.guards 1).andThen (Drawing.Realizes.mark (by simp [transitionMark]))
    (.inl (Drawing.open_guards c.guards 1))

/-- The part behind the transition does what the transition does, and then passes the checks. -/
lemma realizes_back {c : Contract} {b : Behavior}
    (h : (Drawing.transition c.transition).Realizes b) :
    c.back.Realizes ((Behavior.settle (some "success") b).andThen (.pass c.checkMarks)) := by
  have hpost : (Drawing.checks .postcondition "post" c.postconditions).Realizes _ :=
    Drawing.Realizes.chain (by simp)
  have hinvariant : (Drawing.checks .invariant "invariant" c.invariants).Realizes _ :=
    Drawing.Realizes.chain (by simp)
  have hchecks := (hpost.andThen
    ((hinvariant.andThen .skip (.inl (Drawing.open_chain _))).congr (Drawing.pass_append_iff _ _))
    (.inl (Drawing.open_chain _))).congr (Drawing.pass_append_iff _ _)
  rw [List.append_nil] at hchecks
  exact (h.settle (some "success")).andThen hchecks (.inl (Drawing.open_settle _ _))

/-- **A contract falls apart behind its transition.** -/
lemma exists_cut (c : Contract) : ∃ t, c.front.Cut t none ∧
    ∀ {finish g}, (Drawing.chart finish (c.front.andThen c.back)).freeze = .ok g →
      g.mark? t = some transitionMark := by
  set f := Drawing.guards c.guards 1 2 Drawing.beginning with hf
  have hlocal : f.Local 2 Drawing.beginning := (Drawing.Realizes.guards c.guards 1).within 2 _
  have hold : ∀ id, Placed 0 (2 + f.marks.length) id → id ≠ nodeId (2 + f.marks.length + 1) := by
    rintro id hid rfl
    rw [Placed.nodeId_iff] at hid
    omega
  refine ⟨nodeId (2 + f.marks.length + 1), ⟨rfl, fun e he => ?_⟩, fun {finish g} hg => ?_⟩
  · rcases List.mem_append.mp he with he | he
    · exact hold _ (hlocal.placed_source Drawing.placed_beginning e he)
    · obtain ⟨⟨l, hl⟩, -⟩ := mem_link he
      exact hold _ (hlocal.placed_exits Drawing.placed_beginning ⟨e.source, l⟩
        (List.mem_append_left _ hl))
  · have hshows := Draft.shows_freeze hg
    rw [Drawing.marks_chart] at hshows
    have hmark := hshows.right.left.right.head
    rwa [Nat.zero_add] at hmark

/-! ## Words -/

/-- The transition is reached behind the preconditions, without a label. -/
lemma frontBehavior_goesOn_iff {c : Contract} {w : Word} {m : Option String} :
    c.frontBehavior none w (.goesOn m) ↔ w = c.opening ∧ m = none := by
  constructor
  · rintro (⟨-, hfinal⟩ | ⟨u, n, v, ⟨rfl, hn⟩ | ⟨-, hn⟩, ⟨rfl, hm⟩, rfl⟩)
    · exact absurd hfinal id
    · cases hn
      cases hm
      exact ⟨rfl, rfl⟩
    · cases hn
  · rintro ⟨rfl, rfl⟩
    exact .inr ⟨_, _, _, .inl ⟨rfl, rfl⟩, ⟨rfl, rfl⟩, rfl⟩

/-- Up to the transition only preconditions fail. -/
lemma frontBehavior_fails_iff {c : Contract} {w : Word} :
    c.frontBehavior none w .fails ↔ FailsGuard c.guards none 1 w := by
  constructor
  · rintro (⟨⟨-, hm⟩ | ⟨hfails, -⟩, -⟩ | ⟨u, n, v, -, ⟨-, hm⟩, -⟩)
    · cases hm
    · exact hfails
    · cases hm
  · exact fun h => .inl ⟨.inr ⟨h, rfl⟩, trivial⟩

/-- Control goes on behind the transition with a word that begins with the one up to the transition.
-/
lemma front_andThen_goesOn_iff {c : Contract} {b : Behavior} {w : Word} {m : Option String} :
    (c.frontBehavior.andThen b) none w (.goesOn m) ↔
      ∃ v, b none v (.goesOn m) ∧ w = c.opening ++ v := by
  constructor
  · rintro (⟨-, hfinal⟩ | ⟨u, n, v, hfront, hb, rfl⟩)
    · exact absurd hfinal id
    · obtain ⟨rfl, rfl⟩ := frontBehavior_goesOn_iff.mp hfront
      exact ⟨v, hb, rfl⟩
  · rintro ⟨v, hb, rfl⟩
    exact .inr ⟨_, none, v, frontBehavior_goesOn_iff.mpr ⟨rfl, rfl⟩, hb, rfl⟩

/-- A contract fails at a precondition or behind its transition. -/
lemma front_andThen_fails_iff {c : Contract} {b : Behavior} {w : Word} :
    (c.frontBehavior.andThen b) none w .fails ↔
      FailsGuard c.guards none 1 w ∨ ∃ v, b none v .fails ∧ w = c.opening ++ v := by
  constructor
  · rintro (⟨hfront, -⟩ | ⟨u, n, v, hfront, hb, rfl⟩)
    · exact .inl (frontBehavior_fails_iff.mp hfront)
    · obtain ⟨rfl, rfl⟩ := frontBehavior_goesOn_iff.mp hfront
      exact .inr ⟨v, hb, rfl⟩
  · rintro (hfails | ⟨v, hb, rfl⟩)
    · exact .inl ⟨frontBehavior_fails_iff.mpr hfails, trivial⟩
    · exact .inr ⟨_, none, v, frontBehavior_goesOn_iff.mpr ⟨rfl, rfl⟩, hb, rfl⟩

/-- What a contract does behind its transition, if it goes on to its end. -/
lemma back_goesOn_iff {ms : List Mark} {b : Behavior} {l : Option String} {w : Word} {last : Mark} :
    (∃ v m, (b.andThen (.pass ms)) l v (.goesOn m) ∧ w = v ++ [(m, last)]) ↔
      ∃ v m, b l v (.goesOn m) ∧ w = v ++ spell m (ms ++ [last]) := by
  constructor
  · rintro ⟨-, m, ⟨-, hfinal⟩ | ⟨v, n, u, hb, ⟨rfl, hm⟩, rfl⟩, rfl⟩
    · exact absurd hfinal id
    · cases hm
      refine ⟨v, n, hb, ?_⟩
      rw [spell_append, List.append_assoc]
      rfl
  · rintro ⟨v, m, hb, rfl⟩
    refine ⟨_, _, .inr ⟨v, m, _, hb, ⟨rfl, rfl⟩, rfl⟩, ?_⟩
    rw [spell_append, List.append_assoc]
    rfl

/-- The checks behind a transition do not fail. -/
lemma back_fails_iff {ms : List Mark} {b : Behavior} {l : Option String} {w : Word} :
    (b.andThen (.pass ms)) l w .fails ↔ b l w .fails := by
  constructor
  · rintro (⟨hb, -⟩ | ⟨_, _, _, -, ⟨-, hm⟩, -⟩)
    · exact hb
    · cases hm
  · exact fun h => .inl ⟨h, trivial⟩

/-- **The chart of a contract is exact.** For every contract whose transition is a function with a
block as its body there is a chart, and one of its nodes is the transition. What it reads from there
to its end are the words with which the body comes to its end or returns, each with the checks
behind it; if there are none, an edge for success leads on at once. What it reads from there to an
error are the words with which the body fails. From its start it reads the preconditions up to the
transition, or an error of one of them behind those that hold.

**Proof sketch.** The statements of the body are drawn with the walks of their runs
(`Setting.realizes_body`). The chart falls apart behind the transition (`exists_cut`), so the walks
from there are those of the part behind it, and the walks from the start pass both parts. -/
theorem contractChart_exact (root : Tree) {object function body : Tree}
    (hfunction : object.functionProperty? "transition" = some function)
    (hbody : function.child? "body" = some body) (hblock : body.kind = "statement_block")
    (id : String) :
    ∃ a t, Artifact.ofContract id (.ofObject root object) = .ok a ∧
      a.graph.mark? (nodeId 1) = some ⟨.start, "start"⟩ ∧
      a.graph.mark? (nodeId 2) = some ⟨.finish, "ok"⟩ ∧
      a.graph.mark? t = some ⟨.action, "transition"⟩ ∧
      (∀ w, a.graph.Reads t w (nodeId 2) ↔
        ∃ v m, Setting.contract.Leaves body (some "success") v m ∧
          w = v ++ spell m ((ofObject root object).checkMarks ++ [⟨.finish, "ok"⟩])) ∧
      (∀ w, a.graph.ReadsError t w ↔ Run .contract body none w .fails) ∧
      (∀ w, a.graph.Reads (nodeId 1) w (nodeId 2) ↔
        ∃ v, a.graph.Reads t v (nodeId 2) ∧ w = (ofObject root object).opening ++ v) ∧
      ∀ w, a.graph.ReadsError (nodeId 1) w ↔ FailsGuard (ofObject root object).guards none 1 w ∨
        ∃ v, a.graph.ReadsError t v ∧ w = (ofObject root object).opening ++ v := by
  set c := ofObject root object with hc
  have htransition : c.transition = .statements (Stmt.ofForest .contract body.children) := by
    simp only [hc, ofObject, hfunction, Transition.ofFunction, hbody, hblock, if_true]
  have hbodies : (Drawing.transition c.transition).Realizes (Run .contract body) := by
    rw [htransition]
    exact Setting.contract.realizes_body hblock
  have hfront := c.realizes_front
  have hback := realizes_back hbodies
  have hwhole := hfront.andThen hback (.inl c.open_front)
  obtain ⟨g, hg⟩ := hwhole.exists_freeze_chart "ok"
  obtain ⟨t, hcut, ht⟩ := c.exists_cut
  have hreads : ∀ w, g.Reads t w (nodeId 2) ↔ _ := fun w =>
    hfront.reads_finish_iff (w := w) hback (.inl c.open_front) hg hcut
  have herrors : ∀ w, g.ReadsError t w ↔ _ := fun w =>
    hfront.readsError_iff (w := w) hback (.inl c.open_front) hg hcut (ht hg)
      (by simp [transitionMark])
  have hgraph : (Artifact.ofGraph .contract id g).graph = g := rfl
  refine ⟨.ofGraph .contract id g, t, ?_, Draft.mark?_freeze hg rfl, Draft.mark?_freeze hg rfl,
    ht hg, fun w => ?_, fun w => ?_, fun w => ?_, fun w => ?_⟩
  · rw [Artifact.ofContract, draft, drawing_eq, hg]
    rfl
  · simp only [← Setting.settle_goesOn_iff]
    exact (hreads w).trans back_goesOn_iff
  · exact (herrors w).trans (back_fails_iff.trans Setting.settle_fails_iff)
  · refine (hwhole.reads_chart_iff hg).trans ?_
    simp only [front_andThen_goesOn_iff, hgraph, hreads]
    constructor
    · rintro ⟨-, m, ⟨v, hv, rfl⟩, rfl⟩
      exact ⟨_, ⟨v, m, hv, rfl⟩, List.append_assoc _ _ _⟩
    · rintro ⟨-, ⟨v, m, hv, rfl⟩, rfl⟩
      exact ⟨_, m, ⟨v, hv, rfl⟩, (List.append_assoc _ _ _).symm⟩
  · refine (hwhole.readsError_chart_iff hg).trans ?_
    simp only [front_andThen_fails_iff, hgraph, herrors]

/-- The choice `if (ready) throw failure;`. -/
def failingChoice : Tree :=
  .node ⟨8, "if_statement", true, none, 2, "if (ready) throw failure;"⟩ [
    .node ⟨9, "parenthesized_expression", true, some "condition", 2, "(ready)"⟩ [
      .node ⟨10, "identifier", true, none, 2, "ready"⟩ []],
    .node ⟨11, "throw_statement", true, some "consequence", 2, "throw failure;"⟩ [
      .node ⟨12, "identifier", true, none, 2, "failure"⟩ []]]

/-- The method `transition() { if (ready) throw failure; }`. -/
def failingMethod : Tree :=
  .node ⟨5, "method_definition", true, none, 2,
      "transition() \x7b if (ready) throw failure; \x7d"⟩ [
    .node ⟨6, "property_identifier", true, some "name", 2, "transition"⟩ [],
    .node ⟨7, "statement_block", true, some "body", 2, "\x7b if (ready) throw failure; \x7d"⟩
      [failingChoice]]

/-- The contract `{ pre: [valid], transition() { if (ready) throw failure; } }`. -/
def failingContract : Tree :=
  .node ⟨0, "object", true, none, 1, ""⟩ [
    .node ⟨1, "pair", true, none, 1, "pre: [valid]"⟩ [
      .node ⟨2, "property_identifier", true, some "key", 1, "pre"⟩ [],
      .node ⟨3, "array", true, some "value", 1, "[valid]"⟩ [
        .node ⟨4, "identifier", true, none, 1, "valid"⟩ []]],
    failingMethod]

/-- A choice without an alternative leads to the end with the label of the side that is not there.
-/
theorem contractChart_exact_of_choice :
    ∃ a, Artifact.ofContract "c" (.ofObject .blank failingContract) = .ok a ∧
      a.graph.Reads (nodeId 1)
        [(none, ⟨.precondition, "pre.1"⟩), (some "pass", ⟨.action, "transition"⟩),
          (none, ⟨.decision, "if ready"⟩), (some "false", ⟨.finish, "ok"⟩)] (nodeId 2) := by
  have hfunction : failingContract.functionProperty? "transition" = some failingMethod := rfl
  have hbody : failingMethod.child? "body" = some (.node ⟨7, "statement_block", true, some "body",
      2, "\x7b if (ready) throw failure; \x7d"⟩ [failingChoice]) := rfl
  have hrun : Run .contract failingChoice none [(none, ⟨.decision, "if ready"⟩)]
      (.goesOn (some "false")) := .whenFalse rfl .nil
  obtain ⟨a, t, ha, -, -, -, hreads, -, hstart, -⟩ :=
    contractChart_exact .blank hfunction hbody rfl "c"
  exact ⟨a, ha, (hstart _).mpr ⟨_, (hreads _).mpr ⟨_, some "false",
    .inl (.block rfl (.next hrun .nil)), rfl⟩, rfl⟩⟩

end Contract

end Flowchart
