import Flowchart.Proofs.Flow.Checkpoints
import Flowchart.Proofs.Flow.Live
import Flowchart.Proofs.Text.Distinct

set_option relaxedAutoImplicit false
set_option autoImplicit false

/-!
# Nodes of contracts

The nodes in the chart of a contract are those of its source, one after the other: the terminals,
each precondition with its errors, the transition, the live statements of the body, and the checks
behind it. So the summary of the chart can be counted in the source.

## Main definitions

* `Flowchart.Tree.contractMark?`: the node of a statement in a contract.
* `Flowchart.Contract.statements`: the live statements of the body of a transition.
* `Flowchart.Contract.bodyMarks`: the nodes of the function of a transition.
* `Flowchart.Contract.sourceMarks`: the nodes of a contract, told by its source.
* `Flowchart.Contract.sourceSummary`: the summary of a contract, counted in its source.

## Main results

* `Flowchart.Contract.nodes_mirror_source`: the nodes and the summary of every contract.
-/

namespace Flowchart

/-! ## Statements -/

/-- The forms of statements that are steps. -/
def Form.isStep : Form → Bool
  | .branch | .loop _ | .leave | .plain => true
  | _ => false

/-- The forms of statements at which control branches. -/
def Form.isBranch : Form → Bool
  | .branch | .loop _ => true
  | _ => false

/-- The node of a statement in a contract. All statements have one but blocks and those that do
nothing. -/
def Tree.contractMark? (t : Tree) : Option Mark :=
  match t.form with
  | .block | .blank => none
  | .branch => some ⟨.decision, t.branchLabel⟩
  | .loop form => some ⟨.loop, t.loopLabel form⟩
  | .leave => some ⟨.action, captioned "return" t.firstCode?⟩
  | .fail => some ⟨.error, t.failLabel⟩
  | .unsupported => some ⟨.unsupported, t.unsupportedLabel⟩
  | .plain => some ⟨.action, t.caption⟩

/-- In a contract a statement has at most one node. -/
lemma Setting.marks_contract (t : Tree) : contract.marks t = t.contractMark?.toList := by
  unfold marks Tree.contractMark?
  cases t.form <;> rfl

/-- The nodes of statements are of a sort as often as their forms are. -/
lemma Tree.countP_contractMark? {p : NodeKind → Bool} {q : Form → Bool}
    (h : ∀ t : Tree, t.contractMark?.any (fun m => p m.kind) = q t.form) (ts : List Tree) :
    (ts.filterMap contractMark?).countP (fun m => p m.kind) = ts.countP fun t => q t.form := by
  rw [List.countP_filterMap]
  exact List.countP_congr fun t _ => by
    rw [← h]
    cases t.contractMark? <;> rfl

/-! ## Tags -/

/-- No tag of a guard stands twice. -/
lemma Tree.nodup_guardTags (root guard : Tree) : (root.guardTags guard).Nodup := by
  rw [guardTags_eq]
  split_ifs with hname hfunction
  · cases root.initializer? guard.text with
    | none => exact List.nodup_nil
    | some value =>
      rw [Option.elim_some]
      split_ifs with hvalue
      · exact List.nodup_nil
      · exact nodup_eraseDups _
  · exact nodup_eraseDups _
  · exact List.nodup_nil

namespace Contract

/-! ## Marks of the source -/

/-- The live statements of the body of a transition; none if the body is no block. -/
def statements (object : Tree) : List Tree :=
  match (object.functionProperty? "transition").bind (Tree.child? · "body") with
  | some body => if body.kind = "statement_block" then body.live else []
  | none => []

/-- The nodes of the function of a transition: those of the live statements of its body, or a single
one if there is no function. -/
def bodyMarks (object : Tree) : List Mark :=
  if (object.functionProperty? "transition").isSome then
    (statements object).filterMap Tree.contractMark?
  else [⟨.unsupported, "unsupported: transition is not function-like"⟩]

/-- The nodes of a precondition in its place: its own, and one for each of its tags or a single one
that names the precondition. -/
def guardMarks (place : ℕ) (tags : List String) : List Mark :=
  ⟨.precondition, "pre." ++ toString place⟩ ::
    if tags = [] then [⟨.error, "error(pre." ++ toString place ++ ")"⟩]
    else tags.map fun tag => ⟨.error, "error: " ++ tag⟩

/-- The nodes of checks in a row. -/
def checkRow (kind : NodeKind) (word : String) (count : ℕ) : List Mark :=
  (List.range count).map fun i => ⟨kind, word ++ "." ++ toString (i + 1)⟩

/-- The nodes of a contract, told by its source. -/
def sourceMarks (root object : Tree) : List Mark :=
  [⟨.start, "start"⟩, ⟨.finish, "ok"⟩] ++
    ((Tree.elements (object.arrayProperty? "pre")).zipIdx 1).flatMap (fun (guard, place) =>
      guardMarks place (root.guardTags guard)) ++
    [⟨.action, "transition"⟩] ++ bodyMarks object ++
    checkRow .postcondition "post" (Tree.elements (object.arrayProperty? "post")).length ++
    checkRow .invariant "invariant" (Tree.elements (object.arrayProperty? "invariant")).length

/-! ## Marks of the chart -/

/-- The nodes that are drawn for preconditions in a row. -/
lemma marks_guards (guards : List (List String)) (place size : ℕ) (entries : List Entry) :
    (Drawing.guards guards place size entries).marks =
      (guards.zipIdx place).flatMap fun (tags, place) => guardMarks place tags := by
  induction guards generalizing place size entries with
  | nil => rfl
  | cons tags guards ih =>
    have hguard : (Drawing.guard place tags size entries).marks = guardMarks place tags := by
      cases tags <;> simp [Drawing.guard, errorLabels, guardMarks]
    simp only [List.zipIdx_cons, List.flatMap_cons, ← hguard]
    rw [← ih (place + 1) _ _]
    rfl

/-- The nodes that are drawn for the function of a transition. -/
lemma marks_walked (root object : Tree) (place : ℕ) :
    ((ofObject root object).walked place).marks = bodyMarks object := by
  unfold walked bodyMarks statements
  cases hfunction : object.functionProperty? "transition" with
  | none => simp [ofObject, hfunction, Drawing.transition, Drawing.mark]
  | some function =>
    cases hbody : function.child? "body" with
    | none => simp [ofObject, hfunction, hbody, Transition.ofFunction, Drawing.transition,
        Drawing.skip]
    | some body =>
      by_cases hblock : body.kind = "statement_block"
      · have hmarks : body.live.filterMap Tree.contractMark? =
            body.live.flatMap Setting.contract.marks := by
          rw [List.filterMap_eq_flatMap_toList]
          exact List.flatMap_congr fun t _ => (Setting.marks_contract t).symm
        have hdraw := Setting.contract.marks_body hblock place
          (List.cons_ne_nil (⟨nodeId place, none⟩ : Entry) [])
        simp only [ofObject, hfunction, hbody, hblock, Transition.ofFunction, Drawing.transition,
          Option.bind_some, Option.isSome_some, if_true, hmarks, ← hdraw]
        rfl
      · simp [ofObject, hfunction, hbody, hblock, Transition.ofFunction, Drawing.transition,
          Drawing.returning]

/-- **The nodes in the chart of a contract** are those of its source. -/
lemma marks_draft_ofObject (root object : Tree) :
    (ofObject root object).draft.marks = sourceMarks root object := by
  have hguards : ((ofObject root object).guards.zipIdx 1).flatMap
      (fun (tags, place) => guardMarks place tags) =
      ((Tree.elements (object.arrayProperty? "pre")).zipIdx 1).flatMap fun (guard, place) =>
        guardMarks place (root.guardTags guard) := by
    simp [ofObject, List.zipIdx_map, List.flatMap_map]
  rw [marks_draft, marks_guards, hguards, marks_walked, sourceMarks]
  simp only [List.append_assoc]
  rfl

/-! ## Summaries -/

/-- The summary of a frozen draft counts its marks. -/
lemma summary_freeze {d : Draft} {g : Graph} (hg : d.freeze = .ok g) :
    g.summary =
      { steps := d.marks.countP fun m => m.kind.isStep
        branches := d.marks.countP fun m => m.kind.isBranch
        errorPaths := d.marks.countP fun m => m.kind == .error
        unsupported := d.marks.countP fun m => m.kind == .unsupported } := by
  have hcount : ∀ p : NodeKind → Bool,
      g.nodes.countP (fun n => p n.kind) = d.marks.countP fun m => p m.kind := fun p => by
    rw [← Draft.map_mark_freeze hg, List.countP_map]
    rfl
  simp only [Graph.summary, hcount NodeKind.isStep, hcount NodeKind.isBranch,
    hcount (· == .error), hcount (· == .unsupported)]

/-- The summary of a contract, counted in its source. -/
def sourceSummary (root object : Tree) : Graph.Summary :=
  let guards := Tree.elements (object.arrayProperty? "pre")
  let checks := (Tree.elements (object.arrayProperty? "post")).length +
    (Tree.elements (object.arrayProperty? "invariant")).length
  let absent := if (object.functionProperty? "transition").isNone then 1 else 0
  { steps := 1 + guards.length + checks + (statements object).countP fun t => t.form.isStep
    branches := (statements object).countP fun t => t.form.isBranch
    errorPaths := (guards.map fun guard => max 1 (root.guardTags guard).length).sum +
      (statements object).countP fun t => t.form = .fail
    unsupported := absent + (statements object).countP fun t => t.form = .unsupported }

/-- The nodes of a precondition are of a sort as often as its own node and its errors are. -/
lemma countP_guardMarks (p : NodeKind → Bool) (place : ℕ) (tags : List String) :
    (guardMarks place tags).countP (fun m => p m.kind) =
      (if p .precondition then 1 else 0) + if p .error then max 1 tags.length else 0 := by
  have herrors : (tags.map fun tag => (⟨.error, "error: " ++ tag⟩ : Mark)).countP
      (fun m => p m.kind) = if p .error then tags.length else 0 := by
    cases h : p .error <;> simp [List.countP_map, Function.comp_def, h]
  rw [guardMarks, List.countP_cons, add_comm]
  congr 1
  split_ifs with hnil herror herror
  · simp [hnil, herror]
  · simp [herror]
  · have hpos := List.length_pos_iff.mpr hnil
    rw [herrors, if_pos herror]
    omega
  · rw [herrors, if_neg herror]

/-- The nodes of preconditions in a row are of a sort as often as those of each are. -/
lemma countP_guards (p : NodeKind → Bool) (root : Tree) (guards : List Tree) (place : ℕ) :
    ((guards.zipIdx place).flatMap fun (guard, place) =>
      guardMarks place (root.guardTags guard)).countP (fun m => p m.kind) =
      (if p .precondition then guards.length else 0) +
        if p .error then (guards.map fun guard => max 1 (root.guardTags guard).length).sum
        else 0 := by
  induction guards generalizing place with
  | nil => simp
  | cons guard guards ih =>
    simp only [List.zipIdx_cons, List.flatMap_cons, List.countP_append, countP_guardMarks, ih,
      List.length_cons, List.map_cons, List.sum_cons]
    split_ifs <;> omega

/-- The nodes of checks in a row are all of the kind of the checks. -/
lemma countP_checkRow (p : NodeKind → Bool) (kind : NodeKind) (word : String) (count : ℕ) :
    (checkRow kind word count).countP (fun m => p m.kind) = if p kind then count else 0 := by
  cases hp : p kind <;> simp [checkRow, List.countP_map, Function.comp_def, hp]

section Sorts

variable {p : NodeKind → Bool} {q : Form → Bool}

/-- The nodes of the function of a transition are of a sort as often as the forms of its live
statements are. -/
lemma countP_bodyMarks (h : ∀ t : Tree, t.contractMark?.any (fun m => p m.kind) = q t.form)
    (object : Tree) :
    (bodyMarks object).countP (fun m => p m.kind) =
      (if p .unsupported ∧ (object.functionProperty? "transition").isNone then 1 else 0) +
        (statements object).countP fun t => q t.form := by
  unfold bodyMarks
  cases hfunction : object.functionProperty? "transition" with
  | none => simp [statements, hfunction, List.countP_cons]
  | some function => simp [Tree.countP_contractMark? h]

/-- The nodes of a contract are of a sort as often as those of its parts are. -/
lemma countP_sourceMarks (h : ∀ t : Tree, t.contractMark?.any (fun m => p m.kind) = q t.form)
    (hstart : p .start = false) (hfinish : p .finish = false) (root object : Tree) :
    (sourceMarks root object).countP (fun m => p m.kind) =
      (if p .precondition then (Tree.elements (object.arrayProperty? "pre")).length else 0) +
      (if p .error then ((Tree.elements (object.arrayProperty? "pre")).map fun guard =>
        max 1 (root.guardTags guard).length).sum else 0) +
      (if p .action then 1 else 0) +
      (if p .unsupported ∧ (object.functionProperty? "transition").isNone then 1 else 0) +
      ((statements object).countP fun t => q t.form) +
      (if p .postcondition then (Tree.elements (object.arrayProperty? "post")).length else 0) +
      if p .invariant then (Tree.elements (object.arrayProperty? "invariant")).length else 0 := by
  simp only [sourceMarks, List.countP_append, countP_guards, countP_checkRow,
    countP_bodyMarks h, List.countP_cons, List.countP_nil, hstart, hfinish]
  simp only [Bool.false_eq_true, if_false]
  omega

end Sorts

/-- The summary of the chart of a contract can be counted in its source. -/
lemma summary_eq_sourceSummary {root object : Tree} {g : Graph}
    (hg : (ofObject root object).draft.freeze = .ok g) :
    g.summary = sourceSummary root object := by
  have hstep : ∀ t : Tree, t.contractMark?.any (fun m => m.kind.isStep) = t.form.isStep :=
    fun t => by unfold Tree.contractMark?; cases t.form <;> rfl
  have hbranch : ∀ t : Tree, t.contractMark?.any (fun m => m.kind.isBranch) = t.form.isBranch :=
    fun t => by unfold Tree.contractMark?; cases t.form <;> rfl
  have hfail : ∀ t : Tree, t.contractMark?.any (fun m => m.kind == .error) =
      decide (t.form = .fail) :=
    fun t => by unfold Tree.contractMark?; cases t.form <;> rfl
  have hunsupported : ∀ t : Tree, t.contractMark?.any (fun m => m.kind == .unsupported) =
      decide (t.form = .unsupported) :=
    fun t => by unfold Tree.contractMark?; cases t.form <;> rfl
  rw [summary_freeze hg, marks_draft_ofObject, sourceSummary,
    countP_sourceMarks hstep rfl rfl, countP_sourceMarks hbranch rfl rfl,
    countP_sourceMarks (p := (· == .error)) (q := fun f => decide (f = .fail)) hfail rfl rfl,
    countP_sourceMarks (p := (· == .unsupported)) (q := fun f => decide (f = .unsupported))
      hunsupported rfl rfl]
  have hsteps : ∀ p q r n : ℤ, p + 1 + n + q + r = 1 + p + (q + r) + n := fun _ _ _ _ => by omega
  simp only [NodeKind.isStep, NodeKind.isBranch]
  simp [hsteps]

/-! ## Charts -/

/-- **The nodes of a contract mirror its source.** Every contract has an artifact. The nodes of its
graph are those of the source in their order: the terminals, each precondition with an error for
each of its tags, the transition, the live statements of the body, the postconditions and the
invariants. No tag of a precondition stands twice, and the numbers in the summary are those of the
parts of the source. -/
theorem nodes_mirror_source (root object : Tree) (id : String) :
    ∃ a, Artifact.ofContract id (.ofObject root object) = .ok a ∧
      a.graph.nodes = nodesBehind 0 (sourceMarks root object) ∧
      a.summary = sourceSummary root object ∧
      ∀ guard, (root.guardTags guard).Nodup := by
  obtain ⟨a, ha⟩ := (Owner.contract root object).exists_artifact id
  obtain ⟨g, hg, rfl⟩ := Owner.exists_of_artifact ha
  have hnodes : g.nodes = nodesBehind 0 (sourceMarks root object) := by
    rw [(Draft.freeze_eq_ok hg).1, Draft.nodes_eq]
    exact congrArg (nodesBehind 0) (marks_draft_ofObject root object)
  exact ⟨_, ha, hnodes, summary_eq_sourceSummary hg, root.nodup_guardTags⟩

end Contract

end Flowchart
