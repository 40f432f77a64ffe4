import Flowchart.Proofs.Flow.Discipline
import Flowchart.Proofs.Graph.Route
import Flowchart.Proofs.Graph.WellFormed

set_option relaxedAutoImplicit false
set_option autoImplicit false

/-!
# Checkpoints

Every path through the chart of a contract from its start to its end passes all checks: the
preconditions, the transition, the postconditions and the invariants, each of them once and in this
order. What it visits between the transition and the checks behind it was drawn for the body of the
transition.

## Main definitions

* `Flowchart.Fragment.Visits`: what is visited on the way through a part.
* `Flowchart.Contract.preNodes`, `transitionNode`, `bodyNodes`, `checkNodes`: the nodes in the chart
  of a contract by what they are drawn for.
* `Flowchart.Contract.Passes`: the routes that pass all checks.

## Main results

* `Flowchart.Fragment.Visits.andThen`: what is visited on the way through two parts.
* `Flowchart.Contract.checks_not_bypassed`: every route from start to end passes all checks.
-/

namespace Flowchart

/-! ## Nodes on the way through a part -/

/-- Whether the nodes that are visited on every way through a fragment, from where it is entered to
where control goes on behind it, are as they should be. -/
def Fragment.Visits (f : Fragment) (entries : List Entry) (p : List String → Prop) : Prop :=
  ∀ u w l, Enters entries u → f.Ends naming u w (.goesOn l) → p w.nodes

namespace Drawing

variable {size : ℕ} {entries : List Entry} {part first second : Drawing} {b c : Behavior}
  {p q : List String → Prop}

/-- Nothing is visited on the way through the empty part. -/
lemma visits_skip : (skip size entries).Visits entries (· = []) := by
  intro u w l _ hends
  obtain ⟨v, hwalk, -⟩ := hends
  obtain ⟨rfl, -⟩ := Walk.no_edges_iff.mp hwalk
  rfl

/-- A single node is visited on the way through it. -/
lemma visits_mark (m : Mark) (hentries : ∀ x ∈ entries, Placed 0 size x.node) :
    (mark m size entries).Visits entries (· = [nodeId (size + 1)]) := by
  intro u w l hu hends
  have hexits : ∀ x ∈ (mark m size entries).exits, x.node = nodeId (size + 1) := by
    simp [mark, Fragment.exits]
  obtain ⟨l', -, rfl, -⟩ := (Realizes.ends_node rfl hexits hentries rfl hu w _).mp hends
  rfl

/-- On the way through a precondition only its own node is visited: no edge leads from its errors
back to it. -/
lemma visits_guard (place : ℕ) (tags : List String)
    (hentries : ∀ x ∈ entries, Placed 0 size x.node) :
    (guard place tags size entries).Visits entries (· = [nodeId (size + 1)]) := by
  intro u w l hu hends
  rw [guard_eq] at hends
  obtain ⟨l', w', v, -, rfl, hwalk, hv⟩ := (Fragment.ends_enter_iff
    (failureEdges size (errorMarks place tags).length) rfl hentries
    (fun e he => (mem_failureEdges he).1.not_old) (fun e he => (mem_failureEdges he).2.not_old)
    (by simp [Fragment.exits]) rfl hu w _).mp hends
  obtain ⟨rfl, -⟩ := Entry.mk.inj (List.mem_singleton.mp hv)
  by_cases hnil : w' = []
  · subst hnil
    rfl
  · obtain ⟨e, he, htarget⟩ := hwalk.exists_target hnil
    obtain ⟨i, -, rfl⟩ := List.mem_map.mp he
    have := nodeId_inj.mp htarget
    omega

/-- What is visited on the way through a part are its own nodes. -/
lemma visits_of_local {f : Fragment} (h : f.Local size entries) :
    f.Visits entries fun ids => ∀ id ∈ ids, id ∈ (nodesBehind size f.marks).map Graph.Node.id := by
  intro u w l _ hends id hid
  obtain ⟨v, hwalk, -⟩ := hends
  obtain ⟨e, he, rfl⟩ := hwalk.mem_nodes id hid
  rw [mem_map_id_nodesBehind_iff]
  exact h.target e he

/-- **What is visited on the way through two parts** is what is visited in the first and then what
is visited in the second. -/
lemma visits_andThen (hfirst : Realizes first b) (hsecond : Realizes second c)
    (hentries : ∀ x ∈ entries, Placed 0 size x.node) (h : (first size entries).Visits entries p)
    (h' : (second (size + (first size entries).marks.length)
      (first size entries).continues).Visits (first size entries).continues q) :
    (first.andThen second size entries).Visits entries fun ids =>
      ∃ xs ys, p xs ∧ q ys ∧ ids = xs ++ ys := by
  intro u w l hu hends
  rcases (ends_andThen_iff hfirst hsecond hentries hu w _).mp hends with
    ⟨-, hfinal⟩ | ⟨w₁, w₂, x, rfl, hwalk, ⟨l', hx⟩, hends'⟩
  · exact absurd hfinal id
  · exact ⟨w₁.nodes, w₂.nodes, h u w₁ l' hu ⟨x, hwalk, hx⟩, h' x w₂ l ⟨l', hx⟩ hends',
      Word.nodes_append w₁ w₂⟩

/-- The open ends behind a part are at places of nodes that stand already. -/
lemma placed_continues (h : Realizes part b) (hentries : ∀ x ∈ entries, Placed 0 size x.node) :
    ∀ x ∈ (part size entries).continues,
      Placed 0 (size + (part size entries).marks.length) x.node := fun x hx =>
  (h.within size entries).placed_exits hentries x (List.mem_append_left _ hx)

/-- All nodes in a row are visited on the way through it. -/
lemma visits_chain {marks : List Mark} (hmarks : ∀ m ∈ marks, m.kind ≠ .error)
    (hentries : ∀ x ∈ entries, Placed 0 size x.node) :
    (chain marks size entries).Visits entries
      (· = (nodesBehind size marks).map Graph.Node.id) := by
  induction marks generalizing size entries with
  | nil => exact @visits_skip size entries
  | cons m ms ih =>
    obtain ⟨hm, hms⟩ := List.forall_mem_cons.mp hmarks
    have hmark := Realizes.mark hm
    intro u w l hu hends
    obtain ⟨xs, ys, rfl, rfl, hids⟩ := visits_andThen hmark (Realizes.chain hms) hentries
      (visits_mark m hentries) (ih hms (placed_continues hmark hentries)) u w l hu hends
    exact hids

/-- The preconditions among the nodes that show some marks behind `size` others. -/
def preconditions (size : ℕ) (marks : List Mark) : List Graph.Node :=
  (nodesBehind size marks).filter fun n => n.kind == .precondition

/-- The first of several preconditions stands in the next place, before those behind its errors. -/
lemma preconditions_guards_cons (tags : List String) (guards : List (List String)) (place : ℕ) :
    preconditions size (Drawing.guards (tags :: guards) place size entries).marks =
      ⟨nodeId (size + 1), .precondition, "pre." ++ toString place, (size + 1 : ℕ)⟩ ::
        preconditions (size + (guard place tags size entries).marks.length)
          (Drawing.guards guards (place + 1) (size + (guard place tags size entries).marks.length)
            (guard place tags size entries).continues).marks := by
  have hmarks : (Drawing.guards (tags :: guards) place size entries).marks =
      (guard place tags size entries).marks ++
        (Drawing.guards guards (place + 1) (size + (guard place tags size entries).marks.length)
          (guard place tags size entries).continues).marks := rfl
  have herrors : (nodesBehind (size + 1) (errorMarks place tags)).filter
      (fun n => n.kind == .precondition) = [] :=
    filter_nodesBehind_eq_nil (by simp [errorMarks])
  rw [hmarks, preconditions, nodesBehind_append, List.filter_append]
  simp [guard_eq, preconditionMark, herrors, preconditions]

/-- The preconditions are visited on the way through them, and none of their errors. -/
lemma visits_guards (guards : List (List String)) (place : ℕ)
    (hentries : ∀ x ∈ entries, Placed 0 size x.node) :
    (Drawing.guards guards place size entries).Visits entries
      (· = (preconditions size (Drawing.guards guards place size entries).marks).map
        Graph.Node.id) := by
  induction guards generalizing place size entries with
  | nil => exact @visits_skip size entries
  | cons tags guards ih =>
    have hguard := Realizes.guard place tags
    intro u w l hu hends
    obtain ⟨xs, ys, rfl, rfl, hids⟩ := visits_andThen hguard (Realizes.guards guards (place + 1))
      hentries (visits_guard place tags hentries)
      (ih (place + 1) (placed_continues hguard hentries)) u w l hu hends
    rw [preconditions_guards_cons]
    exact hids

/-- **The preconditions in a chart** are numbered in their order. -/
lemma map_mark_preconditions (guards : List (List String)) (place : ℕ) :
    (preconditions size (Drawing.guards guards place size entries).marks).map
        (fun n => (⟨n.kind, n.label⟩ : Mark)) =
      (List.range' place guards.length).map preconditionMark := by
  induction guards generalizing place size entries with
  | nil => rfl
  | cons tags guards ih =>
    rw [preconditions_guards_cons, List.map_cons, ih, List.length_cons, List.range'_succ,
      List.map_cons]
    rfl

/-- **A route through a chart** visits what is visited on the way through its part, and then the
finish. -/
lemma targets_of_route {finish : String} {g : Graph} {es : List Graph.Edge}
    (h : Realizes part b) (hvisits : (part 2 beginning).Visits beginning p)
    (hg : (chart finish part).freeze = .ok g) (hroute : Route g.edges (nodeId 1) es (nodeId 2)) :
    ∃ ids, p ids ∧ es.map Graph.Edge.target = ids ++ [nodeId 2] := by
  obtain ⟨w, hwalk, hnodes⟩ := hroute.exists_walk
  obtain ⟨hedges, hexits⟩ := h.avoids_finish
  have hperm := (Draft.freeze_eq_ok hg).2.1
  have hdraft := hwalk.mono hperm.subset
  have hfinish : naming (nodeId 2) = some ⟨.action, nodeId 2⟩ := rfl
  have hne : nodeId 1 ≠ nodeId 2 := by
    rw [ne_eq, nodeId_inj]
    omega
  rw [edges_chart, Walk.to_last_iff (fun e he => (hedges e he).1) (fun e he => (hedges e he).2)
    (fun x hx => hexits x (List.mem_append_left _ hx)) hfinish hne] at hdraft
  obtain ⟨w', v, l, hpart, hv, rfl⟩ := hdraft
  refine ⟨w'.nodes, hvisits (nodeId 1) w' l ⟨none, List.mem_singleton.mpr rfl⟩ ⟨v, hpart, hv⟩, ?_⟩
  rw [← hnodes, Word.nodes_append]
  rfl

end Drawing

/-! ## Contracts -/

namespace Contract

/-- The nodes of a contract before its transition: the preconditions and their errors. -/
def frontNodes (c : Contract) : List Graph.Node :=
  nodesBehind 2 (Drawing.guards c.guards 1 2 Drawing.beginning).marks

/-- The preconditions of a contract, in their order. -/
def preNodes (c : Contract) : List Graph.Node :=
  c.frontNodes.filter fun n => n.kind == .precondition

/-- The transition of a contract. -/
def transitionNode (c : Contract) : Graph.Node :=
  ⟨nodeId c.transitionPlace, .action, "transition", c.transitionPlace⟩

/-- The nodes that are drawn for the body of the transition of a contract. -/
def bodyNodes (c : Contract) : List Graph.Node :=
  nodesBehind c.transitionPlace (c.walked c.transitionPlace).marks

/-- The checks behind the transition of a contract, in their order. -/
def checkNodes (c : Contract) : List Graph.Node :=
  nodesBehind (c.transitionPlace + (c.walked c.transitionPlace).marks.length) c.checkMarks

/-- **A route that passes all checks**: it visits the preconditions, the transition, nodes of the
body, and the checks behind it, in this order, and then ends. It leaves preconditions by the edge
for those that hold, and visits each check and the transition once. -/
structure Passes (c : Contract) (es : List Graph.Edge) : Prop where
  visits : ∃ visited, visited ⊆ c.bodyNodes.map Graph.Node.id ∧
    es.map Graph.Edge.target = (c.preNodes ++ [c.transitionNode]).map Graph.Node.id ++
      visited ++ c.checkNodes.map Graph.Node.id ++ [nodeId 2]
  leaves : ∀ e ∈ es, ∀ n ∈ c.preNodes, n.id = e.source → e.label = some "pass"
  once : ∀ n ∈ c.preNodes ++ [c.transitionNode] ++ c.checkNodes,
    (es.map Graph.Edge.target).count n.id = 1

/-! ### Nodes of contracts -/

/-- The checks behind the transition are drawn in their order. -/
lemma marks_closing (c : Contract) (size : ℕ) (entries : List Entry) :
    (c.closing size entries).marks = c.checkMarks := by
  simp [closing, Drawing.andThen, Drawing.checks, Drawing.marks_chain, Drawing.skip, checkMarks]

/-- The marks in the chart of a contract, in their order. -/
lemma marks_draft (c : Contract) : c.draft.marks = [⟨.start, "start"⟩, ⟨.finish, "ok"⟩] ++
    ((Drawing.guards c.guards 1 2 Drawing.beginning).marks ++
      ([transitionMark] ++ ((c.walked c.transitionPlace).marks ++ c.checkMarks))) := by
  rw [draft, contract_eq_drawFrom, Drawing.marks_chart, ← c.marks_closing]
  rfl

/-- **The nodes in the chart of a contract**, in their order. -/
lemma nodes_draft (c : Contract) : c.draft.nodes =
    ⟨nodeId 1, .start, "start", 1⟩ :: ⟨nodeId 2, .finish, "ok", 2⟩ ::
      (c.frontNodes ++ c.transitionNode :: (c.bodyNodes ++ c.checkNodes)) := by
  have hplace : 2 + (Drawing.guards c.guards 1 2 Drawing.beginning).marks.length + 1 =
      c.transitionPlace := rfl
  rw [Draft.nodes_eq, marks_draft, nodesBehind_append, nodesBehind_append, nodesBehind_append,
    nodesBehind_append]
  simp [frontNodes, transitionNode, bodyNodes, checkNodes, transitionMark, hplace]

/-- The preconditions of a contract are numbered, one for each element of the array. -/
lemma marks_preNodes (root object : Tree) :
    (ofObject root object).preNodes.map (fun n => (⟨n.kind, n.label⟩ : Mark)) =
      (List.range (Tree.elements (object.arrayProperty? "pre")).length).map
        fun i => ⟨.precondition, "pre." ++ toString (i + 1)⟩ := by
  have hlength : (ofObject root object).guards.length =
      (Tree.elements (object.arrayProperty? "pre")).length := List.length_map _
  calc (ofObject root object).preNodes.map (fun n => (⟨n.kind, n.label⟩ : Mark))
      = (List.range' 1 (ofObject root object).guards.length).map preconditionMark :=
        Drawing.map_mark_preconditions _ 1
    _ = _ := by
        rw [hlength, List.range'_eq_map_range, List.map_map]
        exact List.map_congr_left fun i _ => by
          simp [preconditionMark, Nat.add_comm 1 i]

/-! ### Visits of contracts -/

/-- The checks behind the transition realize some behavior. -/
lemma exists_realizes_closing (c : Contract) : ∃ b, c.closing.Realizes b := by
  have hpost : (Drawing.checks .postcondition "post" c.postconditions).Realizes _ :=
    Drawing.Realizes.chain (by simp)
  have hinvariant : (Drawing.checks .invariant "invariant" c.invariants).Realizes _ :=
    Drawing.Realizes.chain (by simp)
  exact ⟨_, hpost.andThen (hinvariant.andThen .skip (.inl (Drawing.open_chain _)))
    (.inl (Drawing.open_chain _))⟩

/-- All checks behind the transition are visited on the way through them. -/
lemma visits_closing (c : Contract) {size : ℕ} {entries : List Entry}
    (hentries : ∀ x ∈ entries, Placed 0 size x.node) :
    (c.closing size entries).Visits entries
      (· = (nodesBehind size c.checkMarks).map Graph.Node.id) := by
  have hclosing : c.closing = (Drawing.checks .postcondition "post" c.postconditions).andThen
      (Drawing.checks .invariant "invariant" c.invariants) := by
    funext size entries
    simp [closing, Drawing.andThen, Drawing.skip]
  have hpost : ∀ m ∈ (List.range c.postconditions).map fun i =>
      (⟨.postcondition, "post." ++ toString (i + 1)⟩ : Mark), m.kind ≠ .error := by simp
  have hinvariant : ∀ m ∈ (List.range c.invariants).map fun i =>
      (⟨.invariant, "invariant." ++ toString (i + 1)⟩ : Mark), m.kind ≠ .error := by simp
  have hrealizes := Drawing.Realizes.chain hpost
  rw [hclosing]
  intro u w l hu hends
  obtain ⟨xs, ys, rfl, rfl, hids⟩ := Drawing.visits_andThen hrealizes
    (Drawing.Realizes.chain hinvariant) hentries (Drawing.visits_chain hpost hentries)
    (Drawing.visits_chain hinvariant (Drawing.placed_continues hrealizes hentries)) u w l hu hends
  rw [hids, checkMarks, nodesBehind_append, List.map_append, Drawing.marks_chain]

/-- Behind the transition nodes of its body are visited, and then the checks. -/
lemma visits_back (root object : Tree) :
    let c := ofObject root object
    let entries : List Entry := [⟨nodeId c.transitionPlace, none⟩]
    (c.back c.transitionPlace entries).Visits entries fun ids =>
      ∃ visited, visited ⊆ c.bodyNodes.map Graph.Node.id ∧
        ids = visited ++ c.checkNodes.map Graph.Node.id := by
  intro c entries
  obtain ⟨b, hb⟩ := exists_realizes_transition root object
  obtain ⟨b', hb'⟩ := c.exists_realizes_closing
  have hsettle := hb.settle (some "success")
  have hentries : ∀ x ∈ entries, Placed 0 c.transitionPlace x.node := by
    simp [entries, transitionPlace]
  intro u w l hu hends
  obtain ⟨xs, ys, hxs, rfl, hids⟩ := Drawing.visits_andThen hsettle hb' hentries
    (Drawing.visits_of_local (hsettle.within c.transitionPlace entries))
    (c.visits_closing (Drawing.placed_continues hsettle hentries)) u w l hu hends
  exact ⟨xs, hxs, hids⟩

/-- **What is visited on the way through a contract**: its preconditions, the transition, nodes of
the body, and the checks behind it. -/
lemma visits_contract (root object : Tree) :
    let c := ofObject root object
    (Drawing.contract c 2 Drawing.beginning).Visits Drawing.beginning fun ids =>
      ∃ visited, visited ⊆ c.bodyNodes.map Graph.Node.id ∧
        ids = (c.preNodes ++ [c.transitionNode]).map Graph.Node.id ++
          visited ++ c.checkNodes.map Graph.Node.id := by
  intro c
  obtain ⟨b, hb⟩ := exists_realizes_transition root object
  have hguards := Drawing.Realizes.guards c.guards 1
  have hmark := Drawing.Realizes.mark (m := transitionMark) (by simp [transitionMark])
  have hback := realizes_back hb
  have hentries := Drawing.placed_continues hguards Drawing.placed_beginning
  intro u w l hu hends
  rw [contract_eq_drawFrom] at hends
  obtain ⟨xs, ys, rfl, ⟨xs, zs, rfl, ⟨visited, hvisited, rfl⟩, rfl⟩, hids⟩ :=
    Drawing.visits_andThen hguards (hmark.andThen hback (.inl (Drawing.open_mark _)))
      Drawing.placed_beginning (Drawing.visits_guards c.guards 1 Drawing.placed_beginning)
      (Drawing.visits_andThen hmark hback hentries (Drawing.visits_mark transitionMark hentries)
        (visits_back root object)) u w l hu hends
  refine ⟨visited, hvisited, ?_⟩
  rw [hids, List.map_append, List.append_assoc, List.append_assoc]
  rfl

/-! ### Routes through contracts -/

variable {root object : Tree} {g : Graph} {es : List Graph.Edge}

/-- A route from start to end leaves preconditions by the edge for those that hold: their errors are
dead ends. -/
lemma label_of_route (hg : (ofObject root object).draft.freeze = .ok g)
    (hroute : Route g.edges (nodeId 1) es (nodeId 2)) :
    ∀ e ∈ es, ∀ n ∈ g.nodes, n.kind = .precondition → n.id = e.source → e.label = some "pass" := by
  intro e he n hn hkind hid
  obtain ⟨next, errors, -, -, herrors, hperm⟩ := guards_of_precondition hg hn hkind
  have hmem : e ∈ g.edgesFrom n.id :=
    List.mem_filter.mpr ⟨hroute.mem_edges e he, beq_iff_eq.mpr hid.symm⟩
  rcases List.mem_cons.mp (hperm.subset hmem) with rfl | hfail
  · rfl
  · obtain ⟨m, hm, rfl⟩ := List.mem_map.mp hfail
    obtain ⟨hmnode, hmkind, -⟩ := herrors m hm
    exfalso
    rcases hroute.goes_on _ he with hlast | ⟨e', he', hsource⟩
    · have hfinish : g.mark? (nodeId 2) = some ⟨.finish, "ok"⟩ := Draft.mark?_freeze hg rfl
      have := Draft.kind_of_mem hg hmnode hlast hfinish
      simp [hmkind] at this
    · have hnone := (disciplined_draft hg).terminal m hmnode (.inr hmkind)
      have hmem' : e' ∈ g.edgesFrom m.id :=
        List.mem_filter.mpr ⟨hroute.mem_edges e' he', beq_iff_eq.mpr hsource⟩
      rw [hnone] at hmem'
      cases hmem'

/-- **What a row visits once.** Of a row without repetitions, a first part, a middle and a last part
are visited in turn, with any detours in the middle. Then the first and the last part are visited
once. -/
lemma count_of_detour {before before' visited middle behind : List String} {t last x : String}
    (hnodup : (last :: (before ++ t :: (middle ++ behind))).Nodup)
    (hbefore : before'.Sublist before) (hvisited : visited ⊆ middle)
    (hx : x ∈ before' ++ [t] ++ behind) :
    (before' ++ [t] ++ visited ++ behind ++ [last]).count x = 1 := by
  have hsub : (last :: (before' ++ [t] ++ behind)).Sublist
      (last :: (before ++ t :: (middle ++ behind))) := by
    rw [List.append_assoc]
    exact (hbefore.append ((List.sublist_append_right middle behind).cons_cons t)).cons_cons last
  obtain ⟨hlast, hrow⟩ := List.nodup_cons.mp (hnodup.sublist hsub)
  have hmiddle : x ∉ visited := by
    intro hmem
    have := hvisited hmem
    have hsome : x ∈ before ∨ x = t ∨ x ∈ behind := by
      simp only [List.append_assoc, List.mem_append, List.mem_singleton] at hx
      exact hx.imp_left fun h => hbefore.subset h
    simp only [List.nodup_cons, List.nodup_append, List.mem_append, List.mem_cons] at hnodup
    grind
  have hne : x ≠ last := fun heq => hlast (heq ▸ hx)
  have hcount := List.count_eq_one_of_mem hrow hx
  simp only [List.count_append, List.count_eq_zero_of_not_mem hmiddle] at hcount ⊢
  simpa [List.count_singleton, hne.symm] using hcount

/-- **Every route from start to end passes all checks.** -/
lemma passes_of_route (hg : (ofObject root object).draft.freeze = .ok g)
    (hroute : Route g.edges (nodeId 1) es (nodeId 2)) : (ofObject root object).Passes es := by
  set c := ofObject root object with hc
  obtain ⟨b, hb⟩ := (Owner.contract root object).exists_realizes
  obtain ⟨-, ⟨visited, hvisited, rfl⟩, htargets⟩ :=
    Drawing.targets_of_route hb (visits_contract root object) hg hroute
  have hnodes : g.nodes = _ := (Draft.freeze_eq_ok hg).1.trans c.nodes_draft
  refine ⟨⟨visited, hvisited, htargets⟩, fun e he n hn hid => ?_, fun n hn => ?_⟩
  · obtain ⟨hfront, hkind⟩ := List.mem_filter.mp hn
    have hmem : n ∈ g.nodes := by
      rw [hnodes]
      simp [hfront]
    exact label_of_route hg hroute e he n hmem (beq_iff_eq.mp hkind) hid
  · have hids := (Draft.wellFormed_of_freeze hg).ids_nodup
    have hrow : (nodeId 2 :: (c.frontNodes.map Graph.Node.id ++ c.transitionNode.id ::
        (c.bodyNodes.map Graph.Node.id ++ c.checkNodes.map Graph.Node.id))).Nodup := by
      rw [hnodes, List.map_cons, List.nodup_cons] at hids
      simpa using hids.2
    have hfront : (c.preNodes.map Graph.Node.id).Sublist (c.frontNodes.map Graph.Node.id) :=
      List.filter_sublist.map _
    have hmem : n.id ∈ c.preNodes.map Graph.Node.id ++ [c.transitionNode.id] ++
        c.checkNodes.map Graph.Node.id := by
      have := List.mem_map_of_mem (f := Graph.Node.id) hn
      simpa using this
    rw [htargets, List.map_append]
    exact count_of_detour hrow hfront hvisited hmem

/-- **No path bypasses a check.** For every contract there is the chart. Its nodes are the start,
the end, the preconditions with their errors, the transition, the nodes of its body, and the
postconditions and invariants, as many as there are elements in the arrays of the object. Every path
from the start to the end visits all preconditions in their order, each of which it leaves by the
edge for those that hold, then the transition, then only nodes of the body, and then all
postconditions and all invariants in their order, each of these once.

**Proof sketch.** A walk through two parts in a row is one through the first and then one through
the second (`Drawing.visits_andThen`). The way through a precondition is its node, since its errors
are dead ends, and the way through a settled body stays in it, wherever it ends. -/
theorem checks_not_bypassed (root object : Tree) (id : String) :
    ∃ a, Artifact.ofContract id (.ofObject root object) = .ok a ∧
      let c := ofObject root object
      let marks := fun nodes : List Graph.Node => nodes.map fun n => (⟨n.kind, n.label⟩ : Mark)
      let places := fun name => List.range (Tree.elements (object.arrayProperty? name)).length
      a.graph.nodes = ⟨nodeId 1, .start, "start", 1⟩ :: ⟨nodeId 2, .finish, "ok", 2⟩ ::
        (c.frontNodes ++ c.transitionNode :: (c.bodyNodes ++ c.checkNodes)) ∧
      marks c.preNodes =
        (places "pre").map (fun i => ⟨.precondition, "pre." ++ toString (i + 1)⟩) ∧
      marks c.bodyNodes = (c.walked c.transitionPlace).marks ∧
      marks c.checkNodes =
        (places "post").map (fun i => ⟨.postcondition, "post." ++ toString (i + 1)⟩) ++
          (places "invariant").map (fun i => ⟨.invariant, "invariant." ++ toString (i + 1)⟩) ∧
      ∀ es, Route a.graph.edges (nodeId 1) es (nodeId 2) → c.Passes es := by
  obtain ⟨a, ha⟩ := (Owner.contract root object).exists_artifact id
  obtain ⟨g, hg, rfl⟩ := Owner.exists_of_artifact ha
  refine ⟨_, ha, (Draft.freeze_eq_ok hg).1.trans (nodes_draft _), marks_preNodes root object,
    map_mark_nodesBehind, map_mark_nodesBehind, fun es hroute => passes_of_route hg hroute⟩

end Contract

end Flowchart
