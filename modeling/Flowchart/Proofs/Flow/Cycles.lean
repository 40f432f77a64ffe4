import Flowchart.Proofs.Flow.Discipline
import Flowchart.Proofs.Graph.Route
import Flowchart.Proofs.Graph.WellFormed

set_option relaxedAutoImplicit false
set_option autoImplicit false

/-!
# Cycles

Edges of a chart lead to later nodes, to the finish, or back to a loop from inside of its body. So
every cycle goes through a loop, and a chart without loops has no cycles.

## Main definitions

* `Flowchart.Extent`: the places that a loop takes up in a chart.
* `Flowchart.Stmt.loops`, `Flowchart.Owner.loops`: the loops of statements and of charts.
* `Flowchart.Drawing.Climbs`: a part whose edges lead ahead or back to its own loops.
* `Flowchart.Graph.Climbs`: a flow graph whose cycles come from loops.

## Main results

* `Flowchart.Drawing.climbs_ofTree`: statements climb but for their loops.
* `Flowchart.Artifact.cycles_from_loops`: the charts of contracts and scenarios climb but for their
  loops.
-/

namespace Flowchart

/-! ## Loops of statements -/

/-- The places that a loop takes up in a chart. -/
structure Extent where
  /-- The place of the node of the loop. -/
  top : ℕ
  /-- The place of the last node of its body, or of the loop itself if its body has no nodes. -/
  last : ℕ

/-- Whether an edge leads back to a loop, from its own node or from a node of its body. -/
def Extent.Closes (x : Extent) (e : Graph.Edge) : Prop :=
  e.target = nodeId x.top ∧ ∃ j, x.top ≤ j ∧ j ≤ x.last ∧ e.source = nodeId j

/-- The loops in a part of a flow chart, for each number of nodes before it and each list of open
ends that lead into it. -/
abbrev LoopMap := (size : ℕ) → (entries : List Entry) → List Extent

namespace LoopMap

/-- No loops. -/
def none : LoopMap := fun _ _ => []

/-- The loops of two parts in a row, of which the first is given. -/
def andThen (first : Drawing) (before behind : LoopMap) : LoopMap := fun size entries =>
  let f := first size entries
  before size entries ++ behind (size + f.marks.length) f.continues

/-- The loops of a part that is drawn only where control can get to it. -/
def whenLive (loops : LoopMap) : LoopMap := fun size entries =>
  if entries.isEmpty then [] else loops size entries

/-- The loops of a choice, of whose parts the first is given. -/
def branch (whenTrue : Drawing) (inTrue inFalse : LoopMap) : LoopMap := fun size _ =>
  let id := nodeId (size + 1)
  let f := whenTrue (size + 1) [⟨id, some "true"⟩]
  inTrue (size + 1) [⟨id, some "true"⟩] ++
    inFalse (size + 1 + f.marks.length) [⟨id, some "false"⟩]

/-- A loop over a part, with the loops in the part. -/
def loop (body : Drawing) (inside : LoopMap) : LoopMap := fun size _ =>
  let entries := [⟨nodeId (size + 1), some "iterate"⟩]
  ⟨size + 1, size + 1 + (body (size + 1) entries).marks.length⟩ :: inside (size + 1) entries

end LoopMap

namespace Stmt

mutual

/-- The loops that are drawn of a statement. -/
def loops : Stmt → LoopMap
  | .emit _ => .none
  | .leave _ => .none
  | .fail _ => .none
  | .block body => loopsAll body
  | .branch _ whenTrue whenFalse => .branch whenTrue.draw whenTrue.loops whenFalse.loops
  | .loop _ body => .loop body.draw body.loops

/-- The loops that are drawn of statements one behind the other. -/
def loopsAll : List Stmt → LoopMap
  | [] => .none
  | s :: rest => .whenLive (.andThen s.draw s.loops (loopsAll rest))

end

end Stmt

/-- The loops in the chart of a contract: those of the statements of its transition, which are drawn
behind the transition. -/
def Contract.loops (c : Contract) : List Extent :=
  match c.transition with
  | .statements body => Stmt.loopsAll body c.transitionPlace [⟨nodeId c.transitionPlace, none⟩]
  | _ => []

/-- The loops in the chart of a scenario: those of its statements, which are drawn behind the
terminals. -/
def Scenario.loops : Scenario → List Extent
  | .statements body => Stmt.loopsAll body 2 Drawing.beginning
  | _ => []

/-- The loops in the chart of an owner. -/
def Owner.loops : Owner → List Extent
  | contract root object => (Contract.ofObject root object).loops
  | scenario names function => (Scenario.ofFunction names function).loops

/-! ## Parts that climb -/

/-- The orders of the loops among the nodes that show some marks behind `size` others. -/
def loopOrders (size : ℕ) (marks : List Mark) : List Int :=
  ((nodesBehind size marks).filter fun n => n.kind == .loop).map Graph.Node.order

/-- The loops among two rows of nodes are those of both. -/
lemma loopOrders_append (size : ℕ) (ms ns : List Mark) :
    loopOrders size (ms ++ ns) = loopOrders size ms ++ loopOrders (size + ms.length) ns := by
  simp only [loopOrders, nodesBehind_append, List.filter_append, List.map_append]

/-- A first node has the first order if it is a loop. -/
lemma loopOrders_cons (size : ℕ) (m : Mark) (ms : List Mark) :
    loopOrders size (m :: ms) =
      if m.kind = .loop then ((size + 1 : ℕ) : Int) :: loopOrders (size + 1) ms
      else loopOrders (size + 1) ms := by
  unfold loopOrders
  by_cases hm : m.kind = .loop <;> simp [hm]

/-- Nodes that are no loops have no orders among loops. -/
lemma loopOrders_eq_nil {size : ℕ} {marks : List Mark} (h : ∀ m ∈ marks, m.kind ≠ .loop) :
    loopOrders size marks = [] := by
  rw [loopOrders, filter_nodesBehind_eq_nil h]
  rfl

/-- What is passed is no loop. -/
lemma Setting.Emits.ne_loop {s : Setting} {m : Mark} (h : s.Emits m) : m.kind ≠ .loop := by
  rcases h.kind_eq with h | h <;> simp [h]

/-- The edges from open ends to the next node lead ahead. -/
lemma ahead_of_mem_link {entries : List Entry} {size : ℕ}
    (hentries : ∀ x ∈ entries, Placed 0 size x.node) {e : Graph.Edge}
    (he : e ∈ link entries (nodeId (size + 1))) : e.Ahead := by
  obtain ⟨⟨l, hl⟩, htarget⟩ := mem_link he
  obtain ⟨j, -, hle, hj⟩ := hentries _ hl
  exact ⟨j, size + 1, by omega, hj, htarget⟩

namespace Drawing

/-- **A part that climbs** but for its loops: its edges lead ahead or close a loop, and the loops
are those of its nodes, in their order. -/
structure Climbs (part : Drawing) (loops : LoopMap) : Prop where
  edge : ∀ {size : ℕ} {entries : List Entry}, (∀ x ∈ entries, Placed 0 size x.node) →
    ∀ e ∈ (part size entries).edges, e.Ahead ∨ ∃ x ∈ loops size entries, x.Closes e
  tops : ∀ (size : ℕ) (entries : List Entry),
    (loops size entries).map (fun x => (x.top : Int)) = loopOrders size (part size entries).marks

variable {part first second : Drawing} {loops loops' : LoopMap} {m : Mark}

/-- A part without nodes and edges climbs. -/
lemma climbs_of_no_nodes (hmarks : ∀ size entries, (part size entries).marks = [])
    (hedges : ∀ size entries, (part size entries).edges = []) : Climbs part .none where
  edge := by
    intro size entries _ e he
    rw [hedges] at he
    cases he
  tops size entries := by
    rw [hmarks]
    rfl

/-- The empty part climbs. -/
lemma climbs_skip : Climbs skip .none :=
  climbs_of_no_nodes (fun _ _ => rfl) fun _ _ => rfl

/-- A part of one node climbs if the node is no loop. -/
lemma climbs_of_node (hm : m.kind ≠ .loop)
    (hmarks : ∀ size entries, (part size entries).marks = [m])
    (hedges : ∀ size entries, (part size entries).edges = link entries (nodeId (size + 1))) :
    Climbs part .none where
  edge := by
    intro size entries hentries e he
    rw [hedges] at he
    exact .inl (ahead_of_mem_link hentries he)
  tops size entries := by
    rw [hmarks, loopOrders_eq_nil (by simpa using hm)]
    rfl

/-- A node that control passes climbs if it is no loop. -/
lemma climbs_mark (hm : m.kind ≠ .loop) : Climbs (mark m) .none :=
  climbs_of_node hm (fun _ _ => rfl) fun _ _ => rfl

/-- A precondition climbs. -/
lemma climbs_guard (place : ℕ) (tags : List String) : Climbs (guard place tags) .none where
  edge := by
    intro size entries hentries e he
    rw [guard_eq] at he
    rcases List.mem_append.mp he with he | he
    · exact .inl (ahead_of_mem_link hentries he)
    · obtain ⟨i, -, rfl⟩ := List.mem_map.mp he
      exact .inl ⟨size + 1, size + 1 + i + 1, by omega, rfl, rfl⟩
  tops size entries := by
    rw [guard_eq, loopOrders_eq_nil (by simp [preconditionMark, errorMarks])]
    rfl

namespace Climbs

/-- **Two parts in a row** climb but for the loops of both. -/
lemma andThen (h : Climbs first loops) (h' : Climbs second loops')
    (hlocal : ∀ size entries, (first size entries).Local size entries) :
    Climbs (first.andThen second) (.andThen first loops loops') where
  edge := by
    intro size entries hentries e he
    have hcontinues : ∀ x ∈ (first size entries).continues,
        Placed 0 (size + (first size entries).marks.length) x.node := fun x hx =>
      (hlocal size entries).placed_exits hentries x (List.mem_append_left _ hx)
    rcases List.mem_append.mp he with he | he
    · refine (h.edge hentries e he).imp_right fun ⟨x, hx, hcloses⟩ => ⟨x, ?_, hcloses⟩
      exact List.mem_append_left _ hx
    · refine (h'.edge hcontinues e he).imp_right fun ⟨x, hx, hcloses⟩ => ⟨x, ?_, hcloses⟩
      exact List.mem_append_right _ hx
  tops size entries := by
    simp only [LoopMap.andThen, Drawing.andThen, List.map_append, loopOrders_append, h.tops,
      h'.tops]

/-- A part that is drawn where control gets to it climbs there. -/
lemma whenLive (h : Climbs part loops) : Climbs (.whenLive part) (.whenLive loops) where
  edge := by
    intro size entries hentries e he
    unfold Drawing.whenLive at he
    unfold LoopMap.whenLive
    split_ifs at he ⊢
    · cases he
    · exact h.edge hentries e he
  tops size entries := by
    unfold Drawing.whenLive LoopMap.whenLive
    split_ifs
    · rfl
    · exact h.tops size entries

/-- A part with other ends climbs. -/
lemma leaving (h : Climbs part loops) : Climbs (.leaving part) loops :=
  ⟨h.edge, h.tops⟩

/-- A settled part climbs. -/
lemma settle (h : Climbs part loops) (label : Option String) : Climbs (.settle label part) loops :=
  ⟨h.edge, h.tops⟩

/-- **A choice** climbs but for the loops of both sides. -/
lemma branch (h : Climbs first loops) (h' : Climbs second loops') (label : String) :
    Climbs (.branch label first second) (.branch first loops loops') where
  edge := by
    intro size entries hentries e he
    set f := first (size + 1) [⟨nodeId (size + 1), some "true"⟩] with hf
    have htrue : ∀ x ∈ [(⟨nodeId (size + 1), some "true"⟩ : Entry)],
        Placed 0 (size + 1) x.node := by simp
    have hfalse : ∀ x ∈ [(⟨nodeId (size + 1), some "false"⟩ : Entry)],
        Placed 0 (size + 1 + f.marks.length) x.node := by simp
    rcases List.mem_append.mp he with he | he
    · rcases List.mem_append.mp he with he | he
      · exact .inl (ahead_of_mem_link hentries he)
      · refine (h.edge htrue e he).imp_right fun ⟨x, hx, hcloses⟩ => ⟨x, ?_, hcloses⟩
        exact List.mem_append_left _ hx
    · refine (h'.edge hfalse e he).imp_right fun ⟨x, hx, hcloses⟩ => ⟨x, ?_, hcloses⟩
      exact List.mem_append_right _ hx
  tops size entries := by
    simp [LoopMap.branch, Drawing.branch, loopOrders_cons, loopOrders_append, h.tops, h'.tops]

/-- **A loop** climbs but for itself and the loops in its body.

**Proof sketch.** The ends of the body are at the loop itself or at nodes of the body, so the edges
that lead back from them close the loop. -/
lemma loop (h : Climbs part loops) (hlocal : ∀ size entries, (part size entries).Local size entries)
    (label : String) : Climbs (.loop label part) (.loop part loops) where
  edge := by
    intro size entries hentries e he
    set f := part (size + 1) [⟨nodeId (size + 1), some "iterate"⟩] with hf
    have hnode : ∀ x ∈ [(⟨nodeId (size + 1), some "iterate"⟩ : Entry)],
        Placed 0 (size + 1) x.node := by simp
    rcases List.mem_append.mp he with he | he
    · rcases List.mem_append.mp he with he | he
      · exact .inl (ahead_of_mem_link hentries he)
      · refine (h.edge hnode e he).imp_right fun ⟨x, hx, hcloses⟩ => ⟨x, ?_, hcloses⟩
        exact List.mem_cons_of_mem _ hx
    · obtain ⟨v, l, hl, rfl⟩ := Walk.mem_backEdges.mp he
      obtain ⟨-, hexits⟩ := (hlocal (size + 1) _).behind (Nat.le_refl _) (Nat.le_refl _)
      obtain ⟨j, hlow, hhigh, hj⟩ := hexits ⟨v, l⟩ (List.mem_append_left _ hl)
      exact .inr ⟨_, List.mem_cons_self, rfl, j, hlow, hhigh, hj⟩
  tops size entries := by
    simp [LoopMap.loop, Drawing.loop, loopOrders_cons, h.tops]

end Climbs

/-- A row of nodes that are no loops climbs. -/
lemma climbs_chain {marks : List Mark} (h : ∀ m ∈ marks, m.kind ≠ .loop) :
    Climbs (.chain marks) .none := by
  induction marks with
  | nil => exact climbs_skip
  | cons m ms ih =>
    obtain ⟨hm, hms⟩ := List.forall_mem_cons.mp h
    refine (climbs_mark hm).andThen (ih hms) fun size entries => ?_
    exact Realizes.within_node rfl rfl (by simp [mark, Fragment.exits])

/-- Preconditions in a row climb. -/
lemma climbs_guards (guards : List (List String)) (place : ℕ) :
    Climbs (Drawing.guards guards place) .none := by
  induction guards generalizing place with
  | nil => exact climbs_skip
  | cons tags guards ih =>
    exact (climbs_guard place tags).andThen (ih (place + 1)) (within_guard place tags)

/-! ## Statements -/

/-- The edges of statements stay within them. -/
lemma local_ofTree (s : Setting) (t : Tree) (size : ℕ) (entries : List Entry) :
    ((Stmt.ofTree s.dialect t).draw size entries).Local size entries := by
  obtain ⟨b, hb⟩ := hereditary_realizes.ofTree (s := s) t
  exact hb.within size entries

/-- Statements in a row climb but for their loops if each of them does. -/
lemma climbs_drawAll (s : Setting) {ts : List Tree}
    (h : ∀ t ∈ ts, Climbs (Stmt.ofTree s.dialect t).draw (Stmt.ofTree s.dialect t).loops) :
    Climbs (Stmt.drawAll (ts.map (Stmt.ofTree s.dialect)))
      (Stmt.loopsAll (ts.map (Stmt.ofTree s.dialect))) := by
  induction ts with
  | nil => exact climbs_skip
  | cons t ts ih =>
    obtain ⟨ht, hts⟩ := List.forall_mem_cons.mp h
    exact (ht.andThen (ih hts) (local_ofTree s t)).whenLive

/-- **Statements climb but for their loops.**

**Proof sketch.** Induction on the size of the tree, by the form of the statement. -/
theorem climbs_ofTree (s : Setting) (t : Tree) :
    Climbs (Stmt.ofTree s.dialect t).draw (Stmt.ofTree s.dialect t).loops := by
  have hpart : ∀ part : Option Tree, (∀ c ∈ part, sizeOf c < sizeOf t) →
      (∀ size entries, ((part.elim Stmt.skip (Stmt.ofTree s.dialect)).draw size entries).Local
        size entries) ∧
      Climbs (part.elim Stmt.skip (Stmt.ofTree s.dialect)).draw
        (part.elim Stmt.skip (Stmt.ofTree s.dialect)).loops := by
    intro part hpart
    cases part with
    | none => exact ⟨Realizes.skip.within, climbs_skip⟩
    | some c =>
      have := hpart c rfl
      exact ⟨local_ofTree s c, climbs_ofTree s c⟩
  have hbody := climbs_drawAll s fun c (hc : c ∈ t.codeChildren) => by
    have := Tree.sizeOf_lt_of_mem_codeChildren hc
    exact climbs_ofTree s c
  have hfield := fun field => hpart (t.child? field) fun _ => Tree.sizeOf_lt_of_mem_child?
  have halternative := hpart t.alternative? fun _ => Tree.sizeOf_lt_of_mem_alternative?
  rw [Stmt.ofTree_eq]
  cases t.form with
  | block => exact hbody
  | branch => exact (hfield "consequence").2.branch halternative.2 t.branchLabel
  | loop form => exact (hfield "body").2.loop (hfield "body").1 (t.loopLabel form)
  | leave => exact (climbs_chain fun m hm => (s.emits_leaving t m hm).ne_loop).leaving
  | fail => exact climbs_of_node (by simp) (fun _ _ => rfl) fun _ _ => rfl
  | unsupported => exact climbs_chain (by simp [Dialect.unsupported])
  | blank => exact climbs_skip
  | plain => exact climbs_chain fun m hm => (s.emits_plainMarks t m hm).ne_loop
termination_by sizeOf t

/-- The statements of a function climb but for their loops. -/
lemma climbs_ofForest (s : Setting) (cs : List Tree) :
    Climbs (Stmt.drawAll (Stmt.ofForest s.dialect cs))
      (Stmt.loopsAll (Stmt.ofForest s.dialect cs)) := by
  rw [Stmt.ofForest_eq]
  exact climbs_drawAll s fun t _ => climbs_ofTree s t

end Drawing

/-! ## Contracts and scenarios -/

namespace Contract

variable (root object : Tree)

/-- The statements of a transition are those of trees. -/
lemma exists_ofForest {body : List Stmt}
    (h : (ofObject root object).transition = .statements body) :
    ∃ cs, body = Stmt.ofForest Setting.contract.dialect cs := by
  simp only [ofObject, Transition.ofFunction] at h
  split at h
  · split at h
    · cases h
    · next tree _ =>
      split_ifs at h
      cases h
      exact ⟨tree.children, rfl⟩
  · cases h

/-- What is drawn of a transition climbs but for the loops of its statements. -/
lemma exists_climbs_transition : ∃ loops,
    Drawing.Climbs (.transition (ofObject root object).transition) loops ∧
      loops (ofObject root object).transitionPlace
        [⟨nodeId (ofObject root object).transitionPlace, none⟩] = (ofObject root object).loops := by
  set c := ofObject root object with hc
  unfold loops
  cases htransition : c.transition with
  | unreadable => exact ⟨.none, Drawing.climbs_mark (by simp), rfl⟩
  | bodiless => exact ⟨.none, Drawing.climbs_skip, rfl⟩
  | value label =>
    exact ⟨.none, Drawing.climbs_of_no_nodes (fun _ _ => rfl) fun _ _ => rfl, rfl⟩
  | statements body =>
    obtain ⟨cs, rfl⟩ := exists_ofForest root object htransition
    exact ⟨_, Drawing.climbs_ofForest .contract cs, rfl⟩

/-- **A contract climbs** but for the loops of its transition. -/
lemma exists_climbs : ∃ loops, (Drawing.contract (ofObject root object)).Climbs loops ∧
    loops 2 Drawing.beginning = (ofObject root object).loops := by
  set c := ofObject root object with hc
  obtain ⟨b, hb⟩ := exists_realizes_transition root object
  obtain ⟨loops, hloops, heq⟩ := exists_climbs_transition root object
  have hfront : c.front.Climbs .none := (Drawing.climbs_guards c.guards 1).andThen
    (Drawing.climbs_mark (by simp [transitionMark])) (Drawing.Realizes.guards c.guards 1).within
  have hpost : (Drawing.checks .postcondition "post" c.postconditions).Climbs .none :=
    Drawing.climbs_chain (by simp)
  have hinvariant : (Drawing.checks .invariant "invariant" c.invariants).Climbs .none :=
    Drawing.climbs_chain (by simp)
  have hclosing : c.closing.Climbs .none :=
    hpost.andThen (hinvariant.andThen Drawing.climbs_skip (Drawing.Realizes.chain (by simp)).within)
      (Drawing.Realizes.chain (by simp)).within
  have hback :=
    (hloops.settle (some "success")).andThen hclosing (hb.settle (some "success")).within
  refine ⟨_, c.drawing_eq ▸ hfront.andThen hback c.realizes_front.within, ?_⟩
  have hplace : 2 + (c.front 2 Drawing.beginning).marks.length = c.transitionPlace := by
    simp only [front, Drawing.andThen, Drawing.mark, transitionPlace, List.length_append,
      List.length_singleton]
    omega
  show loops (2 + (c.front 2 Drawing.beginning).marks.length)
    [⟨nodeId c.transitionPlace, none⟩] ++ [] = c.loops
  rw [hplace, List.append_nil, heq]

end Contract

/-- **A scenario climbs** but for the loops of its flow. -/
lemma Scenario.exists_climbs (names : Names) (function : Tree) :
    ∃ loops, (Drawing.scenario (ofFunction names function)).Climbs loops ∧
      loops 2 Drawing.beginning = (ofFunction names function).loops := by
  unfold ofFunction
  split
  · exact ⟨.none, Drawing.Climbs.settle (Drawing.climbs_mark (by simp)) none, rfl⟩
  · next tree _ =>
    have hforest := Drawing.climbs_ofForest (.scenario names) tree.children
    split_ifs
    · exact ⟨_, hforest.settle none, rfl⟩
    · exact ⟨.none, Drawing.Climbs.settle (Drawing.climbs_chain (by simp)) none, rfl⟩
    · exact ⟨.none, Drawing.Climbs.settle (Drawing.climbs_mark (by simp)) none, rfl⟩

/-- **The part of an owner climbs** but for its loops. -/
lemma Owner.exists_climbs (o : Owner) :
    ∃ loops, o.part.Climbs loops ∧ loops 2 Drawing.beginning = o.loops := by
  cases o with
  | contract root object => exact Contract.exists_climbs root object
  | scenario names function => exact Scenario.exists_climbs names function

/-! ## Graphs that climb -/

/-- **A flow graph whose cycles come from loops.** Its loops are the given ones, in their order.
Each edge leads to a later node, to the finish, or back to a loop from its own node or a node of its
body. Each cycle goes through a loop, and without loops there are no cycles. -/
structure Graph.Climbs (g : Graph) (loops : List Extent) : Prop where
  tops : (g.nodesOfKind .loop).map Node.order = loops.map fun x => (x.top : Int)
  edge : ∀ e ∈ g.edges, ∃ u ∈ g.nodes, ∃ v ∈ g.nodes, u.id = e.source ∧ v.id = e.target ∧
    (u.order < v.order ∨ v.kind = .finish ∨
      v.kind = .loop ∧ ∃ x ∈ loops, v.order = x.top ∧ x.top ≤ u.order ∧ u.order ≤ x.last)
  cycle : ∀ u es, Route g.edges u es u → es ≠ [] →
    ∃ e ∈ es, ∃ v ∈ g.nodes, v.id = e.target ∧ v.kind = .loop
  acyclic : g.nodesOfKind .loop = [] → ∀ u es, Route g.edges u es u → es = []

namespace Drawing

variable {finish : String} {part : Drawing} {loops : LoopMap} {b : Behavior} {g : Graph}

/-- The edges of a chart lead ahead, to the finish, or close a loop. -/
lemma Climbs.edge_chart (h : Climbs part loops) (hg : (chart finish part).freeze = .ok g) :
    ∀ e ∈ g.edges, e.Ahead ∨ e.target = nodeId 2 ∨ ∃ x ∈ loops 2 beginning, x.Closes e := by
  intro e he
  have hmem := (Draft.freeze_eq_ok hg).2.1.subset he
  rw [edges_chart] at hmem
  rcases List.mem_append.mp hmem with hmem | hmem
  · rcases h.edge placed_beginning e hmem with hahead | hcloses
    · exact .inl hahead
    · exact .inr (.inr hcloses)
  · exact .inr (.inl (mem_link hmem).2)

/-- No edge leaves the finish of a chart. -/
lemma Realizes.source_ne_finish (h : Realizes part b) (hg : (chart finish part).freeze = .ok g) :
    ∀ e ∈ g.edges, e.source ≠ nodeId 2 := by
  intro e he
  obtain ⟨hedges, hexits⟩ := h.avoids_finish
  have hmem := (Draft.freeze_eq_ok hg).2.1.subset he
  rw [edges_chart] at hmem
  rcases List.mem_append.mp hmem with hmem | hmem
  · exact (hedges e hmem).1
  · obtain ⟨⟨l, hl⟩, -⟩ := mem_link hmem
    exact hexits ⟨e.source, l⟩ (List.mem_append_left _ hl)

/-- The loops of a chart are those of its part. -/
lemma Climbs.tops_chart (h : Climbs part loops) (hg : (chart finish part).freeze = .ok g) :
    (g.nodesOfKind .loop).map Graph.Node.order =
      (loops 2 beginning).map fun x => (x.top : Int) := by
  have hmarks : loopOrders 0 (chart finish part).marks =
      loopOrders 2 (part 2 beginning).marks := by
    rw [marks_chart, loopOrders_append, loopOrders_eq_nil (by simp)]
    rfl
  rw [h.tops, ← hmarks, Graph.nodesOfKind, (Draft.freeze_eq_ok hg).1]
  rfl

/-- The node that an edge leads back to is a loop. -/
lemma Climbs.kind_of_closes (h : Climbs part loops) (hg : (chart finish part).freeze = .ok g)
    {x : Extent} (hx : x ∈ loops 2 beginning) {v : Graph.Node} (hv : v ∈ g.nodes)
    (hid : v.id = nodeId x.top) : v.kind = .loop := by
  have hformed := Draft.wellFormed_of_freeze hg
  have htop : (x.top : Int) ∈ (g.nodesOfKind .loop).map Graph.Node.order :=
    h.tops_chart hg ▸ List.mem_map_of_mem hx
  obtain ⟨n, hn, horder⟩ := List.mem_map.mp htop
  obtain ⟨hmem, hkind⟩ := List.mem_filter.mp hn
  have hshown := Draft.mark?_of_mem hg hmem
  rw [(hformed.id_eq_iff hmem).mpr horder] at hshown
  rw [Draft.kind_of_mem hg hv hid hshown, beq_iff_eq.mp hkind]

/-- **A cycle in a chart** goes through a loop.

**Proof sketch.** On a cycle every edge is followed by another one, so none leads to the finish. If
none led to a loop, all would lead ahead, and the cycle would not get back. -/
lemma Climbs.loop_of_closed (h : Climbs part loops) (hrealizes : Realizes part b)
    (hg : (chart finish part).freeze = .ok g) {u : String} {es : List Graph.Edge}
    (hroute : Route g.edges u es u) (hne : es ≠ []) :
    ∃ e ∈ es, ∃ v ∈ g.nodes, v.id = e.target ∧ v.kind = .loop := by
  by_contra hnone
  apply hne
  apply hroute.nil_of_ahead
  intro e he
  have hmem := hroute.mem_edges e he
  rcases h.edge_chart hg e hmem with hahead | hlast | ⟨x, hx, htop, -⟩
  · exact hahead
  · obtain ⟨e', he', hsource⟩ := hroute.goes_on_of_closed e he
    have hstuck := hrealizes.source_ne_finish hg e' (hroute.mem_edges e' he')
    exact absurd (hsource.trans hlast) hstuck
  · obtain ⟨-, v, hv, hid⟩ := (Draft.wellFormed_of_freeze hg).joins e hmem
    exact absurd ⟨e, he, v, hv, hid, h.kind_of_closes hg hx hv (hid.trans htop)⟩ hnone

/-- **A chart of a part that climbs** climbs but for the loops of the part. -/
lemma climbs_chart (h : Climbs part loops) (hrealizes : Realizes part b)
    (hg : (chart finish part).freeze = .ok g) : g.Climbs (loops 2 beginning) := by
  have hformed := Draft.wellFormed_of_freeze hg
  refine ⟨h.tops_chart hg, fun e he => ?_, fun u es => h.loop_of_closed hrealizes hg,
    fun hnil u es hroute => ?_⟩
  · obtain ⟨⟨u, hu, hsource⟩, v, hv, htarget⟩ := hformed.joins e he
    refine ⟨u, hu, v, hv, hsource, htarget, ?_⟩
    rcases h.edge_chart hg e he with ⟨j, k, hlt, hj, hk⟩ | hlast | ⟨x, hx, htop, j, hlow, hhigh, hj⟩
    · left
      rw [(hformed.id_eq_iff hu).mp (hsource.trans hj),
        (hformed.id_eq_iff hv).mp (htarget.trans hk)]
      omega
    · have hfinish : g.mark? (nodeId 2) = some ⟨.finish, finish⟩ := Draft.mark?_freeze hg rfl
      exact .inr (.inl (Draft.kind_of_mem hg hv (htarget.trans hlast) hfinish))
    · have hid := htarget.trans htop
      refine .inr (.inr ⟨h.kind_of_closes hg hx hv hid, x, hx, (hformed.id_eq_iff hv).mp hid, ?_⟩)
      rw [(hformed.id_eq_iff hu).mp (hsource.trans hj)]
      omega
  · by_contra hne
    obtain ⟨e, -, v, hv, -, hloop⟩ := h.loop_of_closed hrealizes hg hroute hne
    have hmem : v ∈ g.nodesOfKind .loop := List.mem_filter.mpr ⟨hv, beq_iff_eq.mpr hloop⟩
    rw [hnil] at hmem
    cases hmem

end Drawing

namespace Artifact

/-- **Cycles come from loops only.** For every contract and every scenario there is the chart, and
each of its edges leads to a later node, to the finish, or to a loop from the loop itself or a node
that was drawn for its body. So each cycle goes through a loop, and a chart without loops has no
cycles.

**Proof sketch.** Open ends are always at nodes that stand already, so the edges to a new node lead
ahead (`Drawing.Climbs`). The other edges are those from the ends of the body of a loop. -/
theorem cycles_from_loops (o : Owner) (id : String) :
    ∃ a, o.artifact id = .ok a ∧ a.graph.Climbs o.loops := by
  obtain ⟨a, ha⟩ := o.exists_artifact id
  obtain ⟨g, hg, rfl⟩ := Owner.exists_of_artifact ha
  obtain ⟨b, hb⟩ := o.exists_realizes
  obtain ⟨loops, hloops, heq⟩ := o.exists_climbs
  refine ⟨_, ha, ?_⟩
  rw [← heq]
  exact Drawing.climbs_chart hloops hb (o.draft_eq ▸ hg)

end Artifact

end Flowchart
