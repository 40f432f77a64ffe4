import Flowchart.Flow.Artifact
import Flowchart.Proofs.Flow.ContractFlow
import Flowchart.Proofs.Flow.ScenarioFlow

set_option relaxedAutoImplicit false
set_option autoImplicit false

/-!
# Properties of drawings

A property of drawings that each way to draw statements preserves holds of every part that is read
off a script, for every syntax tree. So facts about charts need one lemma for each way to draw, and
no look at the trees.

## Main definitions

* `Flowchart.Drawing.Hereditary`: the properties that the ways to draw statements preserve.
* `Flowchart.Scenario.body`: what a scenario draws before it is settled.
* `Flowchart.Owner`: what a chart documents.

## Main results

* `Flowchart.Drawing.Hereditary.ofTree`: a hereditary property holds of the statement of every tree.
* `Flowchart.Contract.transition_cases`, `Flowchart.Scenario.hereditary_body`: the parts of
  contracts and scenarios that have all hereditary properties.
* `Flowchart.Contract.exists_realizes`, `Flowchart.Scenario.exists_realizes`: everything that is
  read off a script realizes some behavior.
* `Flowchart.Owner.exists_artifact`: every owner has an artifact.
-/

namespace Flowchart

namespace Drawing

variable {s : Setting} {P : Drawing → Prop}

/-! ## Hereditary properties -/

/-- A part that adds nothing where control does not enter it. -/
def Dormant (part : Drawing) : Prop :=
  ∀ size, part size [] = skip size []

/-- The properties of drawings that all ways to draw statements preserve where these run. Of two
parts in a row the second is drawn only if control leaves the first. -/
structure Hereditary (s : Setting) (P : Drawing → Prop) : Prop where
  skip : P .skip
  mark : ∀ {m : Mark}, s.Emits m → P (.mark m)
  stop : ∀ t : Tree, P (.stop ⟨.error, t.failLabel⟩)
  andThen : ∀ {first second : Drawing}, P first → P second → first.Open ∨ second.Dormant →
    P (.andThen first second)
  whenLive : ∀ {part : Drawing}, P part → P (.whenLive part)
  leaving : ∀ {part : Drawing}, P part → P (.leaving part)
  branch : ∀ {whenTrue whenFalse : Drawing} (t : Tree), P whenTrue → P whenFalse →
    P (.branch t.branchLabel whenTrue whenFalse)
  loop : ∀ {body : Drawing} (t : Tree) (form : LoopForm), P body → P (.loop (t.loopLabel form) body)

/-- A part that adds nothing where control does not enter it has no open ends there. -/
lemma Dormant.idle {part : Drawing} (h : part.Dormant) : part.Idle := by
  intro size
  rw [h size]
  rfl

/-- A part that is drawn where control gets to it adds nothing elsewhere. -/
lemma dormant_whenLive (part : Drawing) : (Drawing.whenLive part).Dormant := by
  intro size
  simp [Drawing.whenLive]

/-- Statements add nothing where control does not get to them. -/
lemma dormant_drawAll (body : List Stmt) : (Stmt.drawAll body).Dormant := by
  cases body with
  | nil => exact fun _ => rfl
  | cons s rest => exact dormant_whenLive _

namespace Hereditary

/-- A hereditary property holds of nodes in a row. -/
lemma chain (h : Hereditary s P) {marks : List Mark} (hmarks : ∀ m ∈ marks, s.Emits m) :
    P (.chain marks) := by
  induction marks with
  | nil => exact h.skip
  | cons m ms ih =>
    obtain ⟨hm, hms⟩ := List.forall_mem_cons.mp hmarks
    exact h.andThen (h.mark hm) (ih hms) (.inl (open_mark m))

/-- A hereditary property holds of statements in a row if it holds of each. -/
lemma drawAll (h : Hereditary s P) {body : List Stmt} (hbody : ∀ stmt ∈ body, P stmt.draw) :
    P (Stmt.drawAll body) := by
  induction body with
  | nil => exact h.skip
  | cons stmt rest ih =>
    obtain ⟨hstmt, hrest⟩ := List.forall_mem_cons.mp hbody
    exact h.whenLive (h.andThen hstmt (ih hrest) (.inr (dormant_drawAll rest)))

/-- **A hereditary property holds of the statement of every tree.**

**Proof sketch.** Induction on the size of the tree, by the form of the statement. -/
theorem ofTree (h : Hereditary s P) (t : Tree) : P (Stmt.ofTree s.dialect t).draw := by
  have hpart : ∀ part : Option Tree, (∀ c ∈ part, sizeOf c < sizeOf t) →
      P (part.elim Stmt.skip (Stmt.ofTree s.dialect)).draw := by
    intro part hpart
    cases part with
    | none => exact h.skip
    | some c =>
      have := hpart c rfl
      exact ofTree h c
  have hbody : P (Stmt.drawAll (t.codeChildren.map (Stmt.ofTree s.dialect))) := by
    apply h.drawAll
    intro stmt hstmt
    obtain ⟨c, hc, rfl⟩ := List.mem_map.mp hstmt
    have := Tree.sizeOf_lt_of_mem_codeChildren hc
    exact ofTree h c
  have hfield := fun field => hpart (t.child? field) fun _ => Tree.sizeOf_lt_of_mem_child?
  have halternative := hpart t.alternative? fun _ => Tree.sizeOf_lt_of_mem_alternative?
  rw [Stmt.ofTree_eq]
  cases hform : t.form with
  | block => exact hbody
  | branch => exact h.branch t (hfield "consequence") halternative
  | loop form => exact h.loop t form (hfield "body")
  | leave => exact h.leaving (h.chain (s.emits_leaving t))
  | fail => exact h.stop t
  | unsupported =>
    refine h.chain fun m hm => ?_
    obtain rfl := List.mem_singleton.mp hm
    exact .untraced ((Tree.form_eq_iff .unsupported).mp hform)
  | blank => exact h.skip
  | plain => exact h.chain (s.emits_plainMarks t)
termination_by sizeOf t

/-- A hereditary property holds of the statements of trees in a row. -/
lemma ofForest (h : Hereditary s P) (cs : List Tree) :
    P (Stmt.drawAll (Stmt.ofForest s.dialect cs)) := by
  rw [Stmt.ofForest_eq]
  apply h.drawAll
  intro stmt hstmt
  obtain ⟨c, -, rfl⟩ := List.mem_map.mp hstmt
  exact h.ofTree c

end Hereditary

end Drawing

/-! ## Contracts -/

namespace Contract

variable (root object : Tree)

/-- **The transition of a contract** returns the value of an expression at once, or it has all
hereditary properties. -/
lemma transition_cases : (∃ body : Tree, (ofObject root object).transition = .value body.caption) ∨
    ∀ {P : Drawing → Prop}, Drawing.Hereditary .contract P →
      P (Drawing.transition (ofObject root object).transition) := by
  cases hfunction : object.functionProperty? "transition" with
  | none =>
    refine .inr fun h => ?_
    simp only [ofObject, hfunction, Drawing.transition]
    exact h.mark (.unreadable (by simp))
  | some function =>
    cases hbody : function.child? "body" with
    | none =>
      refine .inr fun h => ?_
      simp only [ofObject, hfunction, Transition.ofFunction, hbody, Drawing.transition]
      exact h.skip
    | some body =>
      by_cases hblock : body.kind = "statement_block"
      · refine .inr fun h => ?_
        simp only [ofObject, hfunction, Transition.ofFunction, hbody, hblock, if_true,
          Drawing.transition]
        exact h.ofForest body.children
      · refine .inl ⟨body, ?_⟩
        simp only [ofObject, hfunction, Transition.ofFunction, hbody, hblock, if_false]

end Contract

/-! ## Kinds of nodes -/

namespace Drawing

/-- A part all of whose nodes are as they should be. -/
def Draws (p : Mark → Prop) (part : Drawing) : Prop :=
  ∀ size entries, ∀ m ∈ (part size entries).marks, p m

section Draws

variable {p : Mark → Prop} {part : Drawing}

/-- Parts in a row have the nodes of all of them. -/
lemma serial_draws : Serial (Draws p) where
  skip := fun _ _ _ hm => absurd hm List.not_mem_nil
  andThen hfirst hsecond := by
    intro size entries m hm
    rcases List.mem_append.mp hm with hm | hm
    · exact hfirst _ _ m hm
    · exact hsecond _ _ m hm

/-- A part of one node has that node. -/
lemma Draws.mark {m : Mark} (h : p m) : Draws p (.mark m) := by
  intro size entries m' hm'
  obtain rfl := List.mem_singleton.mp hm'
  exact h

/-- A precondition has its node and its errors. -/
lemma Draws.guard {place : ℕ} {tags : List String} (hmark : p (preconditionMark place))
    (herrors : ∀ m ∈ errorMarks place tags, p m) : Draws p (.guard place tags) := by
  intro size entries m hm
  rw [guard_eq] at hm
  rcases List.mem_cons.mp hm with rfl | hm
  · exact hmark
  · exact herrors m hm

/-- A part may be said less about. -/
lemma Draws.mono {q : Mark → Prop} (h : Draws p part) (hpq : ∀ m, p m → q m) : Draws q part :=
  fun size entries m hm => hpq m (h size entries m hm)

/-- A settled part has the nodes of the part. -/
lemma Draws.settle (h : Draws p part) (label : Option String) : Draws p (.settle label part) :=
  fun size entries m hm => h size entries m hm

/-- **Statements are drawn with the nodes that they emit**, with choices, loops and errors. -/
lemma hereditary_draws {s : Setting} (hmark : ∀ m, s.Emits m → p m)
    (hstop : ∀ t : Tree, p ⟨.error, t.failLabel⟩)
    (hbranch : ∀ t : Tree, p ⟨.decision, t.branchLabel⟩)
    (hloop : ∀ (t : Tree) (form : LoopForm), p ⟨.loop, t.loopLabel form⟩) :
    Hereditary s (Draws p) where
  skip := serial_draws.skip
  mark hm := .mark (hmark _ hm)
  stop t := by
    intro size entries m hm
    obtain rfl := List.mem_singleton.mp hm
    exact hstop t
  andThen hfirst hsecond _ := serial_draws.andThen hfirst hsecond
  whenLive hpart := by
    intro size entries m hm
    unfold whenLive at hm
    split_ifs at hm
    · exact absurd hm List.not_mem_nil
    · exact hpart _ _ m hm
  leaving hpart := fun size entries m hm => hpart size entries m hm
  branch t htrue hfalse := by
    intro size entries m hm
    rcases List.mem_cons.mp hm with rfl | hm
    · exact hbranch t
    · rcases List.mem_append.mp hm with hm | hm
      · exact htrue _ _ m hm
      · exact hfalse _ _ m hm
  loop t form hbody := by
    intro size entries m hm
    rcases List.mem_cons.mp hm with rfl | hm
    · exact hloop t form
    · exact hbody _ _ m hm

/-- **The terminals of a chart** are its first two nodes. The others are those of its part. -/
lemma exists_nodes_chart {finish : String} {g : Graph} (hdraws : Draws p part)
    (hg : (chart finish part).freeze = .ok g) :
    ∃ rest, g.nodes = ⟨nodeId 1, .start, "start", 1⟩ :: ⟨nodeId 2, .finish, finish, 2⟩ :: rest ∧
      ∀ n ∈ rest, p ⟨n.kind, n.label⟩ := by
  refine ⟨_, (Draft.freeze_eq_ok hg).1, fun n hn => ?_⟩
  obtain ⟨⟨m, place⟩, hm, rfl⟩ := List.mem_map.mp hn
  exact hdraws _ _ m (List.fst_mem_of_mem_zipIdx hm)

/-- The kinds of the nodes of statements. -/
def statementKinds : List NodeKind :=
  [.action, .unsupported, .error, .decision, .loop]

/-- Statements are drawn without terminals and without preconditions. -/
lemma ne_of_mem_statementKinds {kind : NodeKind} (h : kind ∈ statementKinds) :
    (kind ≠ .start ∧ kind ≠ .finish) ∧ kind ≠ .precondition := by
  cases kind <;> revert h <;> decide

/-- Statements are drawn with nodes of five kinds. -/
lemma hereditary_kinds {s : Setting} : Hereditary s (Draws fun m => m.kind ∈ statementKinds) := by
  refine hereditary_draws (fun m hm => ?_) ?_ ?_ ?_
  · rcases hm.kind_eq with h | h <;> simp [h, statementKinds]
  all_goals simp [statementKinds]

end Draws

/-! ## Parts that control does not return from -/

/-- A part that control does not return from. -/
def Settled (part : Drawing) : Prop :=
  ∀ size entries, (part size entries).returns = []

/-- Control does not return from parts in a row if it does not return from any. -/
lemma serial_settled : Serial Settled where
  skip := fun _ _ => rfl
  andThen := by
    intro first second hfirst hsecond size entries
    simp [Drawing.andThen, hfirst size entries, hsecond (size + _) _]

/-- Parts in a row may be put together in any way. -/
lemma andThen_assoc (first second third : Drawing) :
    (first.andThen second).andThen third = first.andThen (second.andThen third) := by
  funext size entries
  simp [Drawing.andThen, Nat.add_assoc]

end Drawing

/-! ## Contracts from a precondition on -/

namespace Contract

/-- What a contract draws from its transition on. -/
def late (c : Contract) : Drawing :=
  (Drawing.mark transitionMark).andThen c.back

/-- What a contract draws from some preconditions on: these, the transition, and what is behind it.
-/
def drawFrom (c : Contract) (guards : List (List String)) (place : ℕ) : Drawing :=
  (Drawing.guards guards place).andThen c.late

/-- A contract is drawn from its first precondition on. -/
lemma contract_eq_drawFrom (c : Contract) : Drawing.contract c = c.drawFrom c.guards 1 := by
  rw [drawing_eq, front, Drawing.andThen_assoc, drawFrom, late]

/-- A contract draws its first precondition and goes on from the next one. -/
lemma drawFrom_cons (c : Contract) (tags : List String) (guards : List (List String)) (place : ℕ) :
    c.drawFrom (tags :: guards) place =
      (Drawing.guard place tags).andThen (c.drawFrom guards (place + 1)) :=
  Drawing.andThen_assoc _ _ _

/-- **A precondition in its place**: what is drawn before it, and what is drawn from the next one
on. -/
lemma drawFrom_append_cons (c : Contract) (before after : List (List String)) (tags : List String)
    (place : ℕ) : c.drawFrom (before ++ tags :: after) place =
      (Drawing.guards before place).andThen ((Drawing.guard (place + before.length) tags).andThen
        (c.drawFrom after (place + before.length + 1))) := by
  induction before generalizing place with
  | nil =>
    rw [List.nil_append, drawFrom_cons, Drawing.guards]
    exact (Drawing.skip_andThen _).symm
  | cons tags' before ih =>
    rw [List.cons_append, drawFrom_cons, ih, List.length_cons,
      show place + 1 + before.length = place + (before.length + 1) by omega,
      ← Drawing.andThen_assoc]
    rfl

variable {root object : Tree}

/-- The checks of a contract behind its transition. -/
def closing (c : Contract) : Drawing :=
  (Drawing.checks .postcondition "post" c.postconditions).andThen
    ((Drawing.checks .invariant "invariant" c.invariants).andThen .skip)

section Serial

variable {P : Drawing → Prop}

/-- The checks behind a transition are postconditions and invariants. -/
lemma kind_of_mem_checkMarks {c : Contract} {m : Mark} (hm : m ∈ c.checkMarks) :
    m.kind = .postcondition ∨ m.kind = .invariant := by
  rcases List.mem_append.mp hm with hm | hm <;> obtain ⟨i, -, rfl⟩ := List.mem_map.mp hm
  · exact .inl rfl
  · exact .inr rfl

/-- A serial property holds of the checks behind a transition if it holds of single checks. -/
lemma closing_of_serial (c : Contract) (h : Drawing.Serial P)
    (hchecks : ∀ m ∈ c.checkMarks, P (.mark m)) : P c.closing :=
  h.andThen (h.chain fun m hm => hchecks m (List.mem_append_left _ hm))
    (h.andThen (h.chain fun m hm => hchecks m (List.mem_append_right _ hm)) h.skip)

/-- **A serial property holds of a contract**, from any precondition on, if it holds of single
nodes, of preconditions and of the settled transition. -/
lemma drawFrom_of_serial (c : Contract) (h : Drawing.Serial P) {guards : List (List String)}
    (hguards : ∀ tags ∈ guards, ∀ place, P (.guard place tags))
    (htransition : P (.mark transitionMark)) (hchecks : ∀ m ∈ c.checkMarks, P (.mark m))
    (hsettle : P (.settle (some "success") (.transition c.transition))) (place : ℕ) :
    P (c.drawFrom guards place) :=
  h.andThen (h.guards hguards place)
    (h.andThen htransition (h.andThen hsettle (c.closing_of_serial h hchecks)))

end Serial

/-- Control does not return from a contract. -/
lemma settled_drawFrom (c : Contract) (guards : List (List String)) (place : ℕ) :
    (c.drawFrom guards place).Settled :=
  c.drawFrom_of_serial Drawing.serial_settled (fun _ _ _ _ _ => rfl) (fun _ _ => rfl)
    (fun _ _ _ _ => rfl) (fun _ _ => rfl) place

variable (root object : Tree)

/-- The nodes that are drawn of a transition are those of statements. -/
lemma draws_transition {p : Mark → Prop} (h : Drawing.Hereditary .contract (Drawing.Draws p)) :
    Drawing.Draws p (Drawing.transition (ofObject root object).transition) := by
  rcases transition_cases root object with ⟨body, hvalue⟩ | hall
  · rw [hvalue]
    exact fun _ _ _ hm => absurd hm List.not_mem_nil
  · exact hall h

/-- From its transition on a contract has no preconditions. -/
lemma draws_late : Drawing.Draws (fun m => m.kind ≠ .precondition) (ofObject root object).late := by
  have hclosing : Drawing.Draws (fun m => m.kind ≠ .precondition)
      (ofObject root object).closing := by
    refine closing_of_serial _ Drawing.serial_draws fun m hm => .mark ?_
    rcases kind_of_mem_checkMarks hm with hm | hm <;> simp [hm]
  exact Drawing.serial_draws.andThen (.mark (by simp [transitionMark]))
    (Drawing.serial_draws.andThen (((draws_transition root object Drawing.hereditary_kinds).mono
      fun m hm => (Drawing.ne_of_mem_statementKinds hm).2).settle _) hclosing)

/-- A contract has no terminals of its own. -/
lemma draws_drawFrom (guards : List (List String)) (place : ℕ) :
    Drawing.Draws (fun m => m.kind ≠ .start ∧ m.kind ≠ .finish)
      ((ofObject root object).drawFrom guards place) := by
  refine drawFrom_of_serial _ Drawing.serial_draws
    (fun tags _ place => .guard (by simp [preconditionMark]) (fun m hm => ?_))
    (.mark (by simp [transitionMark])) (fun m hm => .mark ?_) (.settle ?_ _) place
  · obtain ⟨label, -, rfl⟩ := List.mem_map.mp hm
    simp
  · rcases kind_of_mem_checkMarks hm with hm | hm <;> simp [hm]
  · exact (draws_transition root object Drawing.hereditary_kinds).mono
      fun m hm => (Drawing.ne_of_mem_statementKinds hm).1

end Contract

/-! ## Scenarios -/

namespace Scenario

/-- What a scenario draws before it is settled. -/
def body : Scenario → Drawing
  | .statements body => Stmt.drawAll body
  | .steps labels => .chain (labels.map fun label => ⟨.action, label⟩)
  | .unreadable => .mark ⟨.unsupported, "unsupported: flow body"⟩

/-- A scenario is drawn as its settled body. -/
lemma drawing_eq (s : Scenario) : Drawing.scenario s = Drawing.settle none s.body := by
  cases s <;> rfl

/-- Control does not return from a scenario. -/
lemma settled_scenario (s : Scenario) : (Drawing.scenario s).Settled := by
  rw [drawing_eq]
  exact fun _ _ => rfl

/-- **The body of a scenario** has all hereditary properties. -/
lemma hereditary_body {names : Names} {P : Drawing → Prop}
    (h : Drawing.Hereditary (.scenario names) P) (function : Tree) :
    P (ofFunction names function).body := by
  unfold ofFunction
  split
  · exact h.mark (.unreadable (by simp))
  · next tree _ =>
    split_ifs
    · exact h.ofForest tree.children
    · exact h.chain (Setting.emits_steps names (some tree))
    · exact h.mark (.unreadable (by simp))

/-- A scenario has no terminals of its own, and no preconditions. -/
lemma draws_scenario (names : Names) (function : Tree) :
    Drawing.Draws (fun m => m.kind ∈ Drawing.statementKinds)
      (Drawing.scenario (ofFunction names function)) := by
  rw [drawing_eq]
  exact (hereditary_body Drawing.hereditary_kinds function).settle none

end Scenario

/-! ## Existence of charts -/

namespace Drawing

/-- Statements of every kind realize some behavior. -/
lemma hereditary_realizes {s : Setting} : Hereditary s fun part => ∃ b, part.Realizes b where
  skip := ⟨_, .skip⟩
  mark hm := ⟨_, .mark hm.ne_error⟩
  stop _ := ⟨_, .stop rfl⟩
  andThen := by
    intro first second hfirst hsecond hlive
    obtain ⟨b, hb⟩ := hfirst
    obtain ⟨c, hc⟩ := hsecond
    exact ⟨_, hb.andThen hc (hlive.imp_right fun hdormant => hdormant.idle)⟩
  whenLive := fun ⟨b, hb⟩ => ⟨b, hb.whenLive⟩
  leaving := fun ⟨_, hb⟩ => ⟨_, hb.leaving⟩
  branch t := fun ⟨_, hb⟩ ⟨_, hc⟩ => ⟨_, hb.branch hc t.branchLabel⟩
  loop t form := fun ⟨_, hb⟩ => ⟨_, hb.loop (t.loopLabel form)⟩

end Drawing

/-- Every transition realizes some behavior. -/
lemma Contract.exists_realizes_transition (root object : Tree) :
    ∃ b, (Drawing.transition (ofObject root object).transition).Realizes b := by
  rcases transition_cases root object with ⟨body, hvalue⟩ | hall
  · rw [hvalue]
    exact ⟨_, .returning body.caption⟩
  · exact hall Drawing.hereditary_realizes

/-- **The drawing of every contract**, from any precondition on, realizes some behavior. -/
lemma Contract.exists_realizes (root object : Tree) (guards : List (List String)) (place : ℕ) :
    ∃ b, ((ofObject root object).drawFrom guards place).Realizes b := by
  obtain ⟨b, hb⟩ := exists_realizes_transition root object
  have hmark := Drawing.Realizes.mark (m := transitionMark) (by simp [transitionMark])
  have hlate : (ofObject root object).late.Realizes _ :=
    hmark.andThen (realizes_back hb) (.inl (Drawing.open_mark _))
  exact ⟨_, (Drawing.Realizes.guards guards place).andThen hlate (.inl (Drawing.open_guards _ _))⟩

/-- **The drawing of every scenario** realizes some behavior. -/
lemma Scenario.exists_realizes (names : Names) (function : Tree) :
    ∃ b, (Drawing.scenario (ofFunction names function)).Realizes b := by
  have hbody : ∃ b, (ofFunction names function).body.Realizes b :=
    hereditary_body Drawing.hereditary_realizes function
  obtain ⟨b, hb⟩ := hbody
  rw [drawing_eq]
  exact ⟨_, hb.settle none⟩

/-! ## Owners of charts -/

/-- What a chart documents: the contract of an object literal in a script, or the scenario of a flow
function. -/
inductive Owner where
  | contract (root object : Tree)
  | scenario (names : Names) (function : Tree)

namespace Owner

/-- The kind of an owner. -/
def kind : Owner → OwnerKind
  | contract _ _ => .contract
  | scenario _ _ => .scenario

/-- The chart of an owner. -/
def draft : Owner → Draft
  | contract root object => (Contract.ofObject root object).draft
  | scenario names function => (Scenario.ofFunction names function).draft

/-- The artifact of an owner of a name. -/
def artifact (o : Owner) (id : String) : Except Draft.DanglingEdge Artifact :=
  match o with
  | contract root object => Artifact.ofContract id (.ofObject root object)
  | scenario names function => Artifact.ofScenario id (.ofFunction names function)

/-- What is drawn between the terminals of the chart of an owner. -/
def part : Owner → Drawing
  | contract root object => .contract (.ofObject root object)
  | scenario names function => .scenario (.ofFunction names function)

/-- The label of the finish in the chart of an owner. -/
def finish : Owner → String
  | contract _ _ => "ok"
  | scenario _ _ => "end"

/-- The chart of an owner is that of its part. -/
lemma draft_eq (o : Owner) : o.draft = Drawing.chart o.finish o.part := by
  cases o <;> rfl

/-- The artifact of an owner is that of the graph of its chart. -/
lemma artifact_eq (o : Owner) (id : String) :
    o.artifact id = Artifact.ofGraph o.kind id <$> o.draft.freeze := by
  cases o <;> rfl

/-- The artifact of an owner is that of the graph of its chart. -/
lemma exists_of_artifact {o : Owner} {id : String} {a : Artifact} (h : o.artifact id = .ok a) :
    ∃ g, o.draft.freeze = .ok g ∧ a = .ofGraph o.kind id g := by
  rw [artifact_eq] at h
  cases hg : o.draft.freeze with
  | error fault => rw [hg] at h; cases h
  | ok g =>
    rw [hg] at h
    cases h
    exact ⟨g, rfl, rfl⟩

/-- The part of every owner realizes some behavior. -/
lemma exists_realizes (o : Owner) : ∃ b, o.part.Realizes b := by
  cases o with
  | contract root object =>
    rw [part, Contract.contract_eq_drawFrom]
    exact Contract.exists_realizes root object _ 1
  | scenario names function => exact Scenario.exists_realizes names function

/-- **Every owner has an artifact.** -/
lemma exists_artifact (o : Owner) (id : String) : ∃ a, o.artifact id = .ok a := by
  obtain ⟨b, hb⟩ := o.exists_realizes
  obtain ⟨g, hg⟩ := hb.exists_freeze_chart o.finish
  refine ⟨.ofGraph o.kind id g, ?_⟩
  rw [artifact_eq, draft_eq, hg]
  rfl

end Owner

end Flowchart
