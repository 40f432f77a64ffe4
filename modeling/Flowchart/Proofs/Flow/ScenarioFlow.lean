import Flowchart.Flow.Artifact
import Flowchart.Proofs.Flow.Chart
import Flowchart.Proofs.Flow.Statement

set_option relaxedAutoImplicit false
set_option autoImplicit false

/-!
# The flow of scenarios

The chart of a scenario reads from its start to its end exactly the words of the runs of its flow
function, and to its errors exactly the words of the runs that fail.

## Main results

* `Flowchart.Scenario.scenarioChart_exact`: the words of the chart of a scenario.
-/

namespace Flowchart

namespace Scenario

variable {function body : Tree}

/-- The chart of a scenario whose flow runs statements realizes the runs of the statements. -/
lemma realizes_scenario (hbody : function.child? "body" = some body)
    (hblock : body.kind = "statement_block") (names : Names) :
    (Drawing.scenario (.ofFunction names function)).Realizes
      (Behavior.settle none (Run (.scenario names) body)) := by
  rw [ofFunction, hbody]
  simp only [hblock, if_true]
  exact ((Setting.scenario names).realizes_body hblock).settle none

/-- **The chart of a scenario is exact.** For every flow function whose body is a block there is a
chart. What it reads from its start to its end are the words with which the body comes to its end or
returns, and if there are none it leads from the start to the end at once. What it reads from its
start to an error are the words with which the body fails.

**Proof sketch.** The statements of the body are drawn with the walks of their runs
(`Setting.realizes_body`), and a chart that consists of one part has the walks of that part. -/
theorem scenarioChart_exact (hbody : function.child? "body" = some body)
    (hblock : body.kind = "statement_block") (names : Names) (id : String) :
    ∃ a, Artifact.ofScenario id (.ofFunction names function) = .ok a ∧
      a.graph.mark? (nodeId 1) = some ⟨.start, "start"⟩ ∧
      a.graph.mark? (nodeId 2) = some ⟨.finish, "end"⟩ ∧
      (∀ w, a.graph.Reads (nodeId 1) w (nodeId 2) ↔
        ∃ v m, (Setting.scenario names).Leaves body none v m ∧ w = v ++ [(m, ⟨.finish, "end"⟩)]) ∧
      ∀ w, a.graph.ReadsError (nodeId 1) w ↔ Run (.scenario names) body none w .fails := by
  have hrealizes := realizes_scenario hbody hblock names
  obtain ⟨g, hg⟩ := hrealizes.exists_freeze_chart "end"
  refine ⟨.ofGraph .scenario id g, ?_, Draft.mark?_freeze hg rfl, Draft.mark?_freeze hg rfl,
    fun w => ?_, fun w => ?_⟩
  · rw [Artifact.ofScenario, Scenario.draft, hg]
    rfl
  · simp only [← Setting.settle_goesOn_iff]
    exact hrealizes.reads_chart_iff hg
  · rw [← Setting.settle_fails_iff]
    exact hrealizes.readsError_chart_iff hg

/-- The body of the flow function `() => { while (ready) return; }`. -/
def returningLoop : Tree :=
  .node ⟨1, "statement_block", true, some "body", 1, "\x7b while (ready) return; \x7d"⟩ [
    .node ⟨2, "while_statement", true, none, 1, "while (ready) return;"⟩ [
      .node ⟨3, "parenthesized_expression", true, some "condition", 1, "(ready)"⟩ [
        .node ⟨4, "identifier", true, none, 1, "ready"⟩ []],
      .node ⟨5, "return_statement", true, some "body", 1, "return;"⟩ []]]

/-- A flow function that returns from a loop. -/
def returningFlow : Tree :=
  .node ⟨0, "arrow_function", true, none, 1, "() => \x7b while (ready) return; \x7d"⟩
    [returningLoop]

/-- A return from a loop leads to the end with the label of the loop, since nothing is shown for it.
-/
theorem scenarioChart_exact_of_loop :
    ∃ a, Artifact.ofScenario "s" (.ofFunction [] returningFlow) = .ok a ∧
      a.graph.Reads (nodeId 1)
        [(none, ⟨.loop, "while ready"⟩), (some "iterate", ⟨.finish, "end"⟩)] (nodeId 2) := by
  have hbody : returningFlow.child? "body" = some returningLoop := rfl
  obtain ⟨a, ha, -, -, hreads, -⟩ := scenarioChart_exact hbody rfl [] "s"
  have hrun : Run (.scenario []) returningLoop none [(none, ⟨.loop, "while ready"⟩)]
      (.returns (some "iterate")) :=
    .block rfl (.halt (.loopLeft .testFirst [] rfl (by simp)
      (.halt (.leave rfl rfl) trivial) trivial) trivial)
  exact ⟨a, ha, (hreads _).mpr ⟨_, _, .inr (.inl hrun), rfl⟩⟩

end Scenario

end Flowchart
