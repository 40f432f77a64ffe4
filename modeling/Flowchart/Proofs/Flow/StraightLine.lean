import Flowchart.Flow.Artifact
import Flowchart.Proofs.Flow.Spelling
import Flowchart.Proofs.Graph.EdgeOrder

set_option relaxedAutoImplicit false
set_option autoImplicit false

/-!
# Straight lines

A scenario without choices can be written in several ways: its flow function is an array of steps,
or returns one, or pushes the steps to a variable and returns that. The expressions that hold the
steps may stand in nested arrays, in parentheses and in type assertions. All these flow functions
have one and the same chart, a single path from the start by the steps to the end.

## Main definitions

* `Flowchart.Tree.Arranges`: expressions in their order, possibly in wrappers and nested arrays.
* `Flowchart.Scenario.StraightLine`: the ways to write a scenario without choices.
* `Flowchart.Graph.line`: the graph of a single path.

## Main results

* `Flowchart.Tree.Arranges.stepLabels_eq`: the arrangement of expressions does not change the steps.
* `Flowchart.Scenario.freeze_chart_chain`: nodes in a row give a single path.
* `Flowchart.Scenario.straightLine_exact`: all ways to write a scenario have the same artifact.
-/

namespace Flowchart

/-! ## Arranging expressions -/

namespace Tree

/-- The same expression, written in another place: it may differ in comments and in layout, but in
nothing that the steps in it show. -/
structure Restates (t e : Tree) : Prop where
  outline_eq : t.outline = e.outline
  captions_eq : (t.stepCalls.filterMap shownArgument?).map caption =
    (e.stepCalls.filterMap shownArgument?).map caption

/-- The second row holds the expressions of the first one in their order: by themselves, in
wrappers, and in nested arrays, which may be in wrappers again. -/
inductive Arranges : List Tree → List Tree → Prop where
  | nil : Arranges [] []
  | single {e t v : Tree} {es ts : List Tree} :
    Wraps t v → v.Restates e → Arranges es ts → Arranges (e :: es) (t :: ts)
  | group {t a : Tree} {es es' ts : List Tree} :
    Wraps t a → a.kind = "array" → Arranges es a.codeChildren → Arranges es' ts →
    Arranges (es ++ es') (t :: ts)

variable {names : Names} {t v e a call : Tree} {es ts : List Tree}

/-- Wrappers do not change the steps in an expression. -/
lemma Wraps.stepLabels_eq (h : Wraps t v) : t.stepLabels names = v.stepLabels names := by
  rw [stepLabels_eq_map, stepLabels_eq_map, stepCalls_eq_of_unwrap h.unwrap_eq]

/-- An expression has the same steps wherever it is written. -/
lemma Restates.stepLabels_eq (h : t.Restates e) : t.stepLabels names = e.stepLabels names := by
  have hcalls : t.stepCalls.map outline = e.stepCalls.map outline := by
    rw [← stepCalls_outline, h.outline_eq, stepCalls_outline]
  rw [stepLabels_eq_map, stepLabels_eq_map]
  exact map_stepLabel_congr hcalls h.captions_eq fun _ _ => rfl

/-- An array is its own value. -/
lemma unwrap_array (h : a.kind = "array") : a.unwrap = a := by
  have hnone : a.wrapped? = none := by rw [wrapped?, h]; rfl
  rw [unwrap_eq, hnone]
  rfl

/-- The steps in an array are those of its elements. -/
lemma stepLabels_array (h : a.kind = "array") :
    a.stepLabels names = a.codeChildren.flatMap (stepLabels names) := by
  rw [stepLabels_eq, h]
  rfl

/-- The steps in a call of `push` are those of its arguments. -/
lemma stepLabels_push (h : call.kind = "call_expression") (hpush : call.isPush = true) :
    call.stepLabels names = call.arguments.flatMap (stepLabels names) := by
  have hcallee : call.callee? ≠ some "step" := by
    unfold isPush at hpush
    unfold callee?
    cases hf : call.child? "function" with
    | none => simp
    | some f =>
      rw [hf] at hpush
      have hkind : f.kind = "member_expression" := by
        simp only [Bool.and_eq_true, beq_iff_eq] at hpush
        exact hpush.1
      simp [identifier?, hkind]
  rw [stepLabels_eq, h, if_neg hcallee, if_pos hpush]
  rfl

/-- **Arranging expressions** in wrappers and nested arrays does not change the steps in them. -/
lemma Arranges.stepLabels_eq (h : Arranges es ts) :
    ts.flatMap (stepLabels names) = es.flatMap (stepLabels names) := by
  induction h with
  | nil => rfl
  | single hwraps hsame _ ih =>
    rw [List.flatMap_cons, List.flatMap_cons, hwraps.stepLabels_eq, hsame.stepLabels_eq, ih]
  | group hwraps harray _ _ ih ih' =>
    rw [List.flatMap_cons, List.flatMap_append, hwraps.stepLabels_eq, stepLabels_array harray, ih,
      ih']

/-! ## Collecting steps -/

/-- A statement that pushes values to something. -/
def Pushes (t : Tree) (values : List Tree) : Prop :=
  t.kind = "expression_statement" ∧ ∃ call, t.firstCode? = some call ∧
    call.kind = "call_expression" ∧ call.isPush = true ∧ call.arguments = values

/-- A statement that returns an expression. -/
def Returns (t value : Tree) : Prop :=
  t.kind = "return_statement" ∧ t.firstCode? = some value

/-- A tree is an array of the expressions, possibly in wrappers. -/
def IsArrayOf (t : Tree) (es : List Tree) : Prop :=
  ∃ a, Wraps t a ∧ a.kind = "array" ∧ Arranges es a.codeChildren

/-- An array of expressions has their steps. -/
lemma IsArrayOf.stepLabels_eq (h : t.IsArrayOf es) :
    t.stepLabels names = es.flatMap (stepLabels names) := by
  obtain ⟨a, hwraps, harray, harranges⟩ := h
  rw [hwraps.stepLabels_eq, stepLabels_array harray, harranges.stepLabels_eq]

/-- The value of an array in wrappers is an array. -/
lemma IsArrayOf.kind_unwrap (h : t.IsArrayOf es) : t.unwrap.kind = "array" := by
  obtain ⟨a, hwraps, harray, -⟩ := h
  rw [hwraps.unwrap_eq, unwrap_array harray, harray]

/-- An array in wrappers is no block. -/
lemma IsArrayOf.kind_ne_block (h : t.IsArrayOf es) : t.kind ≠ "statement_block" := by
  obtain ⟨a, hwraps, harray, -⟩ := h
  intro hblock
  cases hwraps with
  | bare => exact absurd (hblock.symm.trans harray) (by decide)
  | first hkind => exact absurd (hblock ▸ hkind) (by decide)
  | last hkind => exact absurd (hblock.symm.trans hkind) (by decide)

end Tree

namespace Scenario

open Flowchart.Tree

/-- The ways to write a scenario that runs the steps in some expressions one after the other. -/
inductive StraightLine (es : List Tree) (function : Tree) : Prop where
  /-- The flow function is an array of the expressions. -/
  | array {body : Tree} :
    function.child? "body" = some body → body.IsArrayOf es → StraightLine es function
  /-- The flow function returns an array of the expressions. -/
  | returned {body last value : Tree} :
    function.child? "body" = some body → body.kind = "statement_block" →
    body.codeChildren = [last] → last.Returns value → value.IsArrayOf es → StraightLine es function
  /-- The flow function declares a variable, pushes the expressions to it in any number of calls,
  and returns it. -/
  | pushed {body declaration last name : Tree} {pushes : List Tree} {parts : List (List Tree)} :
    function.child? "body" = some body → body.kind = "statement_block" →
    body.codeChildren = declaration :: (pushes ++ [last]) →
    declaration.kind ∈ declarationKinds → List.Forall₂ Pushes pushes parts →
    Arranges es parts.flatten → last.Returns name → name.kind = "identifier" →
    StraightLine es function

end Scenario

/-! ## Rows of statements -/

namespace Drawing

/-- Two rows of nodes in one are drawn one behind the other. -/
lemma chain_append (ms ns : List Mark) :
    chain (ms ++ ns) = (chain ms).andThen (chain ns) := by
  induction ms with
  | nil => exact (skip_andThen _).symm
  | cons m ms ih =>
    calc chain (m :: (ms ++ ns)) = (mark m).andThen (chain (ms ++ ns)) := rfl
      _ = (mark m).andThen ((chain ms).andThen (chain ns)) := by rw [ih]
      _ = (chain (m :: ms)).andThen (chain ns) := (andThen_assoc _ _ _).symm

/-- Control does not return from a row of nodes. -/
lemma settled_chain (marks : List Mark) : (chain marks).Settled :=
  serial_settled.chain fun _ _ _ _ => rfl

/-- If control does not return from the first of two parts, all ends of both in a row return if
those of the second one do. -/
lemma leaving_andThen {first : Drawing} (h : first.Settled) (second : Drawing) :
    leaving (andThen first second) = andThen first (leaving second) := by
  funext size entries
  simp [leaving, andThen, Fragment.exits, h size entries]

/-- Returning ends and others are settled alike. -/
lemma settle_leaving (label : Option String) (part : Drawing) :
    settle label (leaving part) = settle label part := by
  funext size entries
  simp [settle, leaving, Fragment.exits]

/-- The chart of a part is what the part draws from the beginning. -/
lemma chart_congr {part part' : Drawing} (finish : String)
    (h : part 2 beginning = part' 2 beginning) : chart finish part = chart finish part' := by
  have hchart : ∀ part : Drawing, chart finish part = ⟨[⟨.start, "start"⟩, ⟨.finish, finish⟩] ++
      (part 2 beginning).marks, (part 2 beginning).edges ++
        link (part 2 beginning).continues (nodeId 2)⟩ := fun _ => rfl
  rw [hchart, hchart, h]

/-- There is nothing to settle in a part that is left, and from which control does not return. -/
lemma settle_eq {part : Drawing} (hopen : part.Open) (hsettled : part.Settled)
    (label : Option String) (size : ℕ) {entries : List Entry} (hentries : entries ≠ []) :
    settle label part size entries = part size entries := by
  have hreturns : (part size entries).returns = [] := hsettled size entries
  have hcontinues := hopen size entries hentries
  simp only [settle, Fragment.exits, hreturns, List.append_nil, List.isEmpty_iff, hcontinues,
    if_false]
  rw [← hreturns]

end Drawing

/-- **Statements in a row** that pass nodes, up to one that returns, are drawn like one statement
that passes all the nodes and returns. -/
lemma Stmt.drawAll_emit_leave (parts : List (List Mark)) (last : List Mark) (size : ℕ)
    {entries : List Entry} (hentries : entries ≠ []) :
    drawAll (parts.map emit ++ [leave last]) size entries =
      Drawing.leaving (.chain (parts.flatten ++ last)) size entries := by
  induction parts generalizing size entries with
  | nil => exact drawAll_singleton (leave last) size hentries
  | cons marks parts ih =>
    have hempty : entries.isEmpty = false := by simpa using hentries
    have hrest := fun size' => ih size' (Drawing.open_chain marks size entries hentries)
    rw [List.flatten_cons, List.append_assoc, Drawing.chain_append,
      Drawing.leaving_andThen (Drawing.settled_chain marks)]
    simp only [List.map_cons, List.cons_append, drawAll, draw, Drawing.whenLive, hempty,
      Drawing.andThen, Bool.false_eq_true, if_false, hrest]

/-! ## Single paths -/

namespace Graph

/-- The edges from each place to the next one. -/
def path (places : List ℕ) : List Edge :=
  List.zipWith (fun j k => ⟨nodeId j, nodeId k, none⟩) places places.tail

/-- The graph of a single path, from the start by actions with the given labels to the end. No edge
has a label. -/
def line (labels : List String) : Graph where
  nodes := ⟨nodeId 1, .start, "start", 1⟩ :: ⟨nodeId 2, .finish, "end", 2⟩ ::
    (labels.zipIdx 3).map fun (label, k) => ⟨nodeId k, .action, label, k⟩
  edges := path (1 :: (List.range' 3 labels.length ++ [2]))

/-- The edges of a path leave all places but the last one. -/
lemma map_source_path (places : List ℕ) (last : ℕ) :
    (path (places ++ [last])).map Edge.source = places.map nodeId := by
  induction places with
  | nil => rfl
  | cons j places ih =>
    cases places with
    | nil => rfl
    | cons k places => exact congrArg (nodeId j :: ·) ih

end Graph

namespace Drawing

/-- Nodes in a row that are entered by one edge and left to one node make a path. -/
lemma edges_chain (marks : List Mark) (size first last : ℕ) :
    (chain marks size [⟨nodeId first, none⟩]).edges ++
        link (chain marks size [⟨nodeId first, none⟩]).continues (nodeId last) =
      Graph.path (first :: (List.range' (size + 1) marks.length ++ [last])) := by
  induction marks generalizing size first with
  | nil => rfl
  | cons m marks ih => exact congrArg (⟨nodeId first, nodeId (size + 1), none⟩ :: ·) (ih _ _)

end Drawing

namespace Scenario

open Flowchart.Tree

/-- **Nodes in a row** give a single path. -/
lemma freeze_chart_chain (labels : List String) :
    (Drawing.chart "end"
        (.settle none (.chain (labels.map fun label => ⟨.action, label⟩)))).freeze =
      .ok (Graph.line labels) := by
  set marks : List Mark := labels.map fun label => ⟨.action, label⟩ with hmarks
  have hkinds : ∀ m ∈ marks, m.kind ≠ .error := by
    intro m hm
    obtain ⟨label, -, rfl⟩ := List.mem_map.mp hm
    simp
  have hpart : Drawing.settle none (.chain marks) 2 Drawing.beginning =
      Drawing.chain marks 2 Drawing.beginning :=
    Drawing.settle_eq (Drawing.open_chain marks) (Drawing.settled_chain marks) none 2
      (List.cons_ne_nil _ _)
  obtain ⟨g, hg⟩ := ((Drawing.Realizes.chain hkinds).settle none).exists_freeze_chart "end"
  have hedges : (Drawing.chart "end" (.settle none (.chain marks))).edges =
      Graph.path (1 :: List.range' 3 labels.length ++ [2]) := by
    rw [Drawing.edges_chart, hpart, Drawing.beginning, Drawing.edges_chain, hmarks, List.length_map]
    rfl
  have hplaces : (1 :: List.range' 3 labels.length).Pairwise (· < ·) := by
    refine List.pairwise_cons.mpr ⟨fun k hk => ?_, List.pairwise_lt_range'⟩
    have := (List.mem_range'_1.mp hk).1
    omega
  have hsame := Draft.edges_freeze_of_increasing hg
    (by rw [hedges, Graph.map_source_path]) hplaces
  have hnodes := (Draft.freeze_eq_ok hg).1
  rw [Draft.nodes, Drawing.marks_chart, hpart, Drawing.marks_chain] at hnodes
  rw [hg]
  obtain ⟨nodes, edges⟩ := g
  rw [Except.ok.injEq, Graph.line, Graph.mk.injEq]
  refine ⟨hnodes.trans ?_, hsame.trans hedges⟩
  simp [hmarks, List.zipIdx_map]

variable {names : Names} {es : List Tree} {function body t value : Tree}

/-- A statement that returns an expression passes the steps in it. -/
lemma ofTree_of_returns (h : t.Returns value) :
    Stmt.ofTree (.scenario names) t =
      .leave ((value.stepLabels names).map fun label => ⟨.action, label⟩) := by
  rw [Stmt.ofTree_eq, (Tree.form_eq_iff .leave).mpr h.1]
  simp only [Dialect.scenario, h.2, Dialect.steps]

/-- A declaration passes no nodes. -/
lemma ofTree_of_declaration (h : t.kind ∈ declarationKinds) :
    Stmt.ofTree (.scenario names) t = .emit [] := by
  have hplain : t.kind ∉ controlKinds := by
    rcases List.mem_pair.mp h with h | h <;> rw [h] <;> decide
  rw [Stmt.ofTree_eq, (Tree.form_eq_iff .plain).mpr hplain]
  exact congrArg Stmt.emit (Setting.plainMarks_declaration h)

/-- A statement that pushes values passes the steps in them. -/
lemma ofTree_of_pushes {values : List Tree} (h : t.Pushes values) :
    Stmt.ofTree (.scenario names) t =
      .emit ((values.flatMap (stepLabels names)).map fun label => ⟨.action, label⟩) := by
  obtain ⟨hkind, call, hfirst, hcall, hpush, rfl⟩ := h
  have hplain : t.kind ∉ controlKinds := hkind ▸ by decide
  have hmarks : (Setting.scenario names).plainMarks t = Dialect.steps names t.firstCode? :=
    Setting.plainMarks_expression hkind
  rw [hfirst, Dialect.steps, stepLabels_push hcall hpush] at hmarks
  rw [Stmt.ofTree_eq, (Tree.form_eq_iff .plain).mpr hplain]
  exact congrArg Stmt.emit hmarks

/-- Statements that push values one after the other pass the steps in all of them. -/
lemma map_ofTree_pushes {pushes : List Tree} {parts : List (List Tree)}
    (h : List.Forall₂ Pushes pushes parts) :
    pushes.map (Stmt.ofTree (.scenario names)) = parts.map fun values =>
      .emit ((values.flatMap (stepLabels names)).map fun label => ⟨.action, label⟩) := by
  induction h with
  | nil => rfl
  | cons hpush _ ih => rw [List.map_cons, List.map_cons, ofTree_of_pushes hpush, ih]

/-- A flow function whose statements pass nodes in a row, up to one that returns, has the chart of
the row. -/
lemma draft_of_statements (parts : List (List Mark)) (last : List Mark)
    (hbody : function.child? "body" = some body) (hblock : body.kind = "statement_block")
    (h : body.codeChildren.map (Stmt.ofTree (.scenario names)) =
      parts.map Stmt.emit ++ [.leave last]) :
    (ofFunction names function).draft =
      Drawing.chart "end" (.settle none (.chain (parts.flatten ++ last))) := by
  have hread : ofFunction names function = .statements (parts.map Stmt.emit ++ [.leave last]) := by
    have hforest : Stmt.ofForest (.scenario names) body.children =
        parts.map Stmt.emit ++ [.leave last] := (Stmt.ofForest_eq _ _).trans h
    rw [ofFunction, hbody]
    simp only [hblock, if_true, hforest]
  have hrow : Stmt.drawAll (parts.map Stmt.emit ++ [.leave last]) 2 Drawing.beginning =
      Drawing.leaving (.chain (parts.flatten ++ last)) 2 Drawing.beginning :=
    Stmt.drawAll_emit_leave parts last 2 (List.cons_ne_nil _ _)
  rw [draft, hread, ← Drawing.settle_leaving]
  refine Drawing.chart_congr "end" ?_
  simp only [Drawing.scenario, Drawing.settle, hrow]

/-- **The chart of a straight line** is that of its steps in a row, in whatever way the line is
written. -/
lemma StraightLine.draft_eq (h : StraightLine es function) (names : Names) :
    (ofFunction names function).draft = Drawing.chart "end" (.settle none
      (.chain ((es.flatMap (stepLabels names)).map fun label => ⟨.action, label⟩))) := by
  cases h with
  | array hbody harray =>
    rw [draft, ofFunction, hbody]
    simp only [harray.kind_ne_block, harray.kind_unwrap, if_false, if_true, harray.stepLabels_eq]
    rfl
  | returned hbody hblock hchildren hlast harray =>
    refine draft_of_statements [] _ hbody hblock ?_
    rw [hchildren, List.map_singleton, ofTree_of_returns hlast, harray.stepLabels_eq]
    rfl
  | @pushed body declaration last name pushes parts hbody hblock hchildren hdeclaration hpushes
      harranges hlast hkind =>
    have hname : name.stepLabels names = [] := by
      rw [stepLabels_eq, hkind]
      rfl
    have hread := draft_of_statements ([] :: parts.map fun values =>
      (values.flatMap (stepLabels names)).map fun label => ⟨.action, label⟩) [] hbody hblock (by
        rw [hchildren, List.map_cons, List.map_append, List.map_singleton,
          ofTree_of_declaration hdeclaration, map_ofTree_pushes hpushes, ofTree_of_returns hlast,
          hname, List.map_cons, List.map_map]
        rfl)
    rw [hread, ← harranges.stepLabels_eq, List.flatten_cons, List.nil_append, List.append_nil,
      ← List.flatMap_def, List.flatten_eq_flatMap, List.flatMap_assoc, List.map_flatMap]
    rfl

/-- **The ways to write a straight line agree.** For every list of expressions, every flow function
that runs the steps in them one after the other has the same artifact: whether it is an array of the
expressions, returns such an array, or pushes the expressions to a variable in any number of calls
and returns it; and wherever the expressions are put into nested arrays, parentheses and type
assertions. Its graph is a single path without labels, from the start by the steps of the
expressions in their order to the end.

**Proof sketch.** The steps in an arrangement of expressions are those of the expressions
(`Tree.Arranges.stepLabels_eq`). Each way to write the flow draws them in a row, and the edges of a
row leave the nodes in their order, so sorting does not move them. -/
theorem straightLine_exact (names : Names) (id : String) (h : StraightLine es function) :
    Artifact.ofScenario id (.ofFunction names function) =
      .ok (.ofGraph .scenario id (.line (es.flatMap (stepLabels names)))) := by
  rw [Artifact.ofScenario, h.draft_eq names, freeze_chart_chain]
  rfl

/-! ## An example -/

/-- The call `step(v)` of a variable. -/
def stepOf (row : ℕ) (v : String) : Tree :=
  .node ⟨row, "call_expression", true, none, 1, "step(" ++ v ++ ")"⟩ [
    .node ⟨row + 1, "identifier", true, some "function", 1, "step"⟩ [],
    .node ⟨row + 2, "arguments", true, some "arguments", 1, "(" ++ v ++ ")"⟩ [
      .node ⟨row + 3, "identifier", true, none, 1, v⟩ []]]

/-- An array literal. -/
def arrayOf (row : ℕ) (field : Option String) (elements : List Tree) : Tree :=
  .node ⟨row, "array", true, field, 1, "[...]"⟩ elements

/-- The statement `all.push(...)`. -/
def pushOf (row : ℕ) (values : List Tree) : Tree :=
  .node ⟨row, "expression_statement", true, none, 1, "all.push(...);"⟩ [
    .node ⟨row + 1, "call_expression", true, none, 1, "all.push(...)"⟩ [
      .node ⟨row + 2, "member_expression", true, some "function", 1, "all.push"⟩ [
        .node ⟨row + 3, "identifier", true, some "object", 1, "all"⟩ [],
        .node ⟨row + 4, "property_identifier", true, some "property", 1, "push"⟩ []],
      .node ⟨row + 5, "arguments", true, some "arguments", 1, "(...)"⟩ values]]

/-- A statement that returns a value. -/
def returnOf (row : ℕ) (value : Tree) : Tree :=
  .node ⟨row, "return_statement", true, none, 1, "return ...;"⟩ [value]

/-- An arrow function with a body. -/
def arrowOf (body : Tree) : Tree :=
  .node ⟨0, "arrow_function", true, none, 1, "() => ..."⟩ [body]

/-- The body of a function that runs statements. -/
def blockOf (statements : List Tree) : Tree :=
  .node ⟨1, "statement_block", true, some "body", 1, "\x7b ... \x7d"⟩ statements

/-- The step `step(pay) as Step`. -/
def assertedStep : Tree :=
  .node ⟨8, "as_expression", true, none, 1, "step(pay) as Step"⟩ [
    stepOf 9 "pay", .node ⟨13, "type_identifier", true, none, 1, "Step"⟩ []]

/-- The flow `() => ([[step(add)], step(pay) as Step])`. -/
def arrayFlow : Tree :=
  arrowOf (.node ⟨1, "parenthesized_expression", true, some "body", 1, "(...)"⟩ [
    arrayOf 2 none [arrayOf 3 none [stepOf 4 "add"], assertedStep]])

/-- The flow `() => { return [step(add), step(pay)]; }`. -/
def returnFlow : Tree :=
  arrowOf (blockOf [returnOf 2 (arrayOf 3 none [stepOf 4 "add", stepOf 8 "pay"])])

/-- The flow `() => { const all = []; all.push(step(add)); all.push([step(pay)]); return all; }`. -/
def pushFlow : Tree :=
  arrowOf (blockOf [
    .node ⟨2, "lexical_declaration", true, none, 1, "const all = [];"⟩ [
      .node ⟨3, "variable_declarator", true, none, 1, "all = []"⟩ [
        .node ⟨4, "identifier", true, some "name", 1, "all"⟩ [], arrayOf 5 (some "value") []]],
    pushOf 6 [stepOf 12 "add"],
    pushOf 16 [arrayOf 22 none [stepOf 23 "pay"]],
    returnOf 27 (.node ⟨28, "identifier", true, none, 1, "all"⟩ [])])

/-- A call of `step` is the same expression in every place. -/
lemma restates_stepOf (j k : ℕ) (v : String) : (stepOf j v).Restates (stepOf k v) where
  outline_eq := rfl
  captions_eq := by
    have hcalls : ∀ k, (stepOf k v).stepCalls = [stepOf k v] := fun k => by
      rw [stepCalls_eq]
      rfl
    rw [hcalls, hcalls]
    rfl

/-- A call of `step` by itself, in a row of expressions. -/
lemma arranges_stepOf {j k : ℕ} {v : String} {es ts : List Tree} (h : Arranges es ts) :
    Arranges (stepOf j v :: es) (stepOf k v :: ts) :=
  .single (.bare _) (restates_stepOf k j v) h

/-- The two steps as an array in parentheses, returned, and pushed one by one. -/
theorem straightLine_exact_of_forms :
    let steps := [stepOf 0 "add", stepOf 4 "pay"]
    let artifact := Artifact.ofGraph .scenario "checkout"
      ⟨[⟨"n1", .start, "start", 1⟩, ⟨"n2", .finish, "end", 2⟩,
          ⟨"n3", .action, "step cart.add", 3⟩, ⟨"n4", .action, "step pay", 4⟩],
        [⟨"n1", "n3", none⟩, ⟨"n3", "n4", none⟩, ⟨"n4", "n2", none⟩]⟩
    StraightLine steps arrayFlow ∧ StraightLine steps returnFlow ∧ StraightLine steps pushFlow ∧
      Artifact.ofScenario "checkout" (.ofFunction [("add", "cart.add")] arrayFlow) =
        .ok artifact ∧
      Artifact.ofScenario "checkout" (.ofFunction [("add", "cart.add")] returnFlow) =
        .ok artifact ∧
      Artifact.ofScenario "checkout" (.ofFunction [("add", "cart.add")] pushFlow) =
        .ok artifact := by
  intro steps artifact
  have hadd : Arranges [stepOf 0 "add"] [stepOf 4 "add"] := arranges_stepOf .nil
  have hpay : Arranges [stepOf 4 "pay"] [assertedStep] :=
    .single (.first (by decide) rfl (.bare _)) (restates_stepOf 9 4 "pay") .nil
  have hnested : Arranges steps [arrayOf 3 none [stepOf 4 "add"], assertedStep] :=
    .group (.bare (arrayOf 3 none [stepOf 4 "add"])) rfl hadd hpay
  have harray : StraightLine steps arrayFlow :=
    .array rfl ⟨_, .first (by decide) rfl (.bare _), rfl, hnested⟩
  have hreturn : StraightLine steps returnFlow :=
    .returned rfl rfl rfl ⟨rfl, rfl⟩ ⟨_, .bare _, rfl, arranges_stepOf (arranges_stepOf .nil)⟩
  have hgroup : Arranges [stepOf 4 "pay"] [arrayOf 22 none [stepOf 23 "pay"]] :=
    .group (.bare (arrayOf 22 none [stepOf 23 "pay"])) rfl (arranges_stepOf .nil) .nil
  have hpushes : List.Forall₂ Pushes
      [pushOf 6 [stepOf 12 "add"], pushOf 16 [arrayOf 22 none [stepOf 23 "pay"]]]
      [[stepOf 12 "add"], [arrayOf 22 none [stepOf 23 "pay"]]] :=
    .cons ⟨rfl, _, rfl, rfl, rfl, rfl⟩ (.cons ⟨rfl, _, rfl, rfl, rfl, rfl⟩ .nil)
  have hpush : StraightLine steps pushFlow :=
    .pushed rfl rfl rfl (by decide) hpushes (arranges_stepOf hgroup) ⟨rfl, rfl⟩ rfl
  exact ⟨harray, hreturn, hpush, straightLine_exact _ _ harray, straightLine_exact _ _ hreturn,
    straightLine_exact _ _ hpush⟩

end Scenario

end Flowchart
