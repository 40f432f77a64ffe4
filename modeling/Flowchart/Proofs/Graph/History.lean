import Flowchart.Proofs.Graph.EdgeOrder
import Mathlib.Data.List.Induction

set_option relaxedAutoImplicit false
set_option autoImplicit false

/-!
# Histories of drafts

What a draft freezes to, told from the calls that drew it, in whatever order nodes and edges were
added. It freezes if and only if every edge runs between its nodes, which may have been added later
than the edge; otherwise the first edge that does not is reported. Further calls extend the graph
and leave what was there in its order.

## Main definitions

* `Flowchart.Draft.Operation`: a call that draws on a draft.
* `Flowchart.Draft.drawn`: the draft that a history of calls draws.
* `Flowchart.Draft.FirstDangling`: the first edge that does not run between nodes.
* `Flowchart.Graph.Freezes`: a graph is what marks and edges freeze to.

## Main results

* `Flowchart.Draft.freeze_eq_error_iff`: what is reported if a draft does not freeze.
* `Flowchart.Draft.extends_freeze`: more nodes and edges extend a frozen graph.
* `Flowchart.Draft.freeze_drawn`: what freezing the draft of a history gives.
-/

namespace Flowchart

/-! ## Groups of a sorted list -/

section Groups

variable {α β : Type} {l : List α}

/-- A list falls apart into two parts if all elements of the one stand before those of the other. -/
lemma filter_append_filter_not {p : α → Bool} (h : l.Pairwise fun a b => p b = true → p a = true) :
    l.filter p ++ l.filter (fun a => !p a) = l := by
  induction l with
  | nil => rfl
  | cons a l ih =>
    obtain ⟨hfirst, hrest⟩ := List.pairwise_cons.mp h
    cases ha : p a with
    | true => simpa [ha] using ih hrest
    | false =>
      have hnone : ∀ b ∈ l, p b = false := by
        intro b hb
        refine Bool.eq_false_iff.mpr fun hpb => ?_
        rw [hfirst b hb hpb] at ha
        cases ha
      have hkeep : l.filter (fun a => !p a) = l := List.filter_eq_self.mpr (by simpa using hnone)
      have hdrop : l.filter p = [] := List.filter_eq_nil_iff.mpr (by simpa using hnone)
      simp [ha, hkeep, hdrop]

/-- **A sorted list** consists of the groups of its elements with equal keys, one behind the other.
-/
lemma flatMap_filter_eq [LinearOrder β] {f : α → β} {keys : List β}
    (hkeys : keys.Pairwise (· < ·)) (hmem : ∀ a ∈ l, f a ∈ keys)
    (hsorted : l.Pairwise fun a b => f a ≤ f b) :
    keys.flatMap (fun k => l.filter fun a => f a = k) = l := by
  induction keys generalizing l with
  | nil =>
    rw [List.eq_nil_iff_forall_not_mem.mpr fun a ha => List.not_mem_nil (hmem a ha)]
    rfl
  | cons k keys ih =>
    obtain ⟨hfirst, hrest⟩ := List.pairwise_cons.mp hkeys
    have hleast : ∀ a ∈ l, k ≤ f a := by
      intro a ha
      rcases List.mem_cons.mp (hmem a ha) with heq | hlater
      · exact heq.ge
      · exact (hfirst _ hlater).le
    have hsplit : l.filter (fun a => f a = k) ++ l.filter (fun a => !decide (f a = k)) = l := by
      refine filter_append_filter_not (List.Pairwise.imp_of_mem (fun ha hb hle hbk => ?_) hsorted)
      rw [decide_eq_true_eq] at hbk ⊢
      exact le_antisymm (hbk ▸ hle) (hleast _ ha)
    have hothers : keys.flatMap (fun j => (l.filter fun a => !decide (f a = k)).filter
        fun a => f a = j) = l.filter fun a => !decide (f a = k) := by
      refine ih hrest (fun a ha => ?_) (hsorted.filter _)
      obtain ⟨hal, hne⟩ := List.mem_filter.mp ha
      exact (List.mem_cons.mp (hmem a hal)).resolve_left (by simpa using hne)
    have hgroups : ∀ j ∈ keys, (l.filter fun a => !decide (f a = k)).filter (fun a => f a = j) =
        l.filter fun a => f a = j := by
      intro j hj
      rw [List.filter_filter]
      refine List.filter_congr fun a _ => ?_
      have hne : j ≠ k := (hfirst j hj).ne'
      by_cases ha : f a = j <;> simp [ha, hne]
    rw [List.flatMap_cons, ← List.flatMap_congr hgroups, hothers, hsplit]

end Groups

/-! ## The first fault -/

/-- **The first fault** of a list is that of its first member that has one. -/
lemma mapM_eq_error_iff {ε α β : Type} {f : α → Except ε β} {l : List α} {fault : ε} :
    l.mapM f = .error fault ↔ ∃ before a behind, l = before ++ a :: behind ∧
      (∀ b ∈ before, ∃ y, f b = .ok y) ∧ f a = .error fault := by
  induction l with
  | nil => simp [pure, Except.pure]
  | cons x l ih =>
    rw [List.mapM_cons]
    cases hx : f x with
    | error fault' =>
      constructor
      · intro h
        cases h
        exact ⟨[], x, l, rfl, by simp, hx⟩
      · rintro ⟨before, a, behind, hl, hbefore, ha⟩
        cases before with
        | nil =>
          obtain ⟨rfl, -⟩ := List.cons.inj hl
          rw [hx] at ha
          cases ha
          rfl
        | cons b before =>
          obtain ⟨rfl, -⟩ := List.cons.inj hl
          obtain ⟨y, hy⟩ := hbefore x List.mem_cons_self
          rw [hx] at hy
          cases hy
    | ok y =>
      have hrest : (do let y ← Except.ok y; let ys ← l.mapM f; pure (y :: ys)) =
          (Except.error fault : Except ε (List β)) ↔ l.mapM f = .error fault := by
        cases hl : l.mapM f <;> simp [bind, Except.bind, pure, Except.pure]
      rw [hrest, ih]
      constructor
      · rintro ⟨before, a, behind, rfl, hbefore, ha⟩
        exact ⟨x :: before, a, behind, rfl, List.forall_mem_cons.mpr ⟨⟨y, hx⟩, hbefore⟩, ha⟩
      · rintro ⟨before, a, behind, hl, hbefore, ha⟩
        cases before with
        | nil =>
          obtain ⟨rfl, -⟩ := List.cons.inj hl
          rw [hx] at ha
          cases ha
        | cons b before =>
          obtain ⟨rfl, rfl⟩ := List.cons.inj hl
          exact ⟨before, a, behind, rfl, (List.forall_mem_cons.mp hbefore).2, ha⟩

namespace Draft

/-- The first of the edges that does not run between the first `size` nodes, with the first of its
endpoints that is none of them. -/
def FirstDangling (size : ℕ) (edges : List Graph.Edge) (fault : DanglingEdge) : Prop :=
  ∃ before behind, edges = before ++ fault.edge :: behind ∧
    (∀ e ∈ before, Placed 0 size e.source ∧ Placed 0 size e.target) ∧
    (¬ Placed 0 size fault.edge.source ∧ fault.endpoint = fault.edge.source ∨
      Placed 0 size fault.edge.source ∧ ¬ Placed 0 size fault.edge.target ∧
        fault.endpoint = fault.edge.target)

variable {d : Draft} {g : Graph}

/-- What is reported for an edge: the source is looked up first. -/
lemma rankEdge_eq_error_iff {e : Graph.Edge} {fault : DanglingEdge} :
    d.rankEdge e = .error fault ↔ fault.edge = e ∧
      (¬ Placed 0 d.size e.source ∧ fault.endpoint = e.source ∨
        Placed 0 d.size e.source ∧ ¬ Placed 0 d.size e.target ∧ fault.endpoint = e.target) := by
  obtain ⟨edge, endpoint⟩ := fault
  rw [← exists_rank?_iff, ← exists_rank?_iff, rankEdge]
  cases d.rank? e.source with
  | none => simp [eq_comm]
  | some s =>
    cases d.rank? e.target with
    | none => simp [eq_comm]
    | some t => simp

/-- A draft freezes if and only if its edges join its nodes. -/
lemma exists_freeze_iff : (∃ g, d.freeze = .ok g) ↔ ∀ e ∈ d.edges, d.Joins e :=
  ⟨fun ⟨_, hg⟩ => (freeze_eq_ok hg).2.2, exists_freeze⟩

/-- **What is reported** if a draft does not freeze: its first edge that does not run between nodes,
and the first endpoint of that edge that is no node. -/
lemma freeze_eq_error_iff {fault : DanglingEdge} :
    d.freeze = .error fault ↔ FirstDangling d.size d.edges fault := by
  have hfreeze : d.freeze = .error fault ↔ d.edges.mapM d.rankEdge = .error fault := by
    rw [freeze]
    cases d.edges.mapM d.rankEdge <;> simp [bind, Except.bind, pure, Except.pure]
  rw [hfreeze, mapM_eq_error_iff, FirstDangling]
  simp only [exists_rankEdge_iff, rankEdge_eq_error_iff, Joins]
  constructor
  · rintro ⟨before, e, behind, hedges, hbefore, rfl, hfault⟩
    exact ⟨before, behind, hedges, hbefore, hfault⟩
  · rintro ⟨before, behind, hedges, hbefore, hfault⟩
    exact ⟨before, fault.edge, behind, hedges, hbefore, rfl, hfault⟩

end Draft

/-! ## Frozen graphs -/

/-- A graph is what marks and edges freeze to: its nodes are numbered in the order of the marks, and
its edges are those given, sorted by source, target and label. Edges with equal keys keep their
order, nodes are found by their identifiers, and the edges that leave the nodes, node after node,
are all edges. -/
structure Graph.Freezes (marks : List Mark) (edges : List Graph.Edge) (g : Graph) : Prop where
  nodes : g.nodes = (marks.zipIdx 1).map fun (m, k) => ⟨"n" ++ toString k, m.kind, m.label, k⟩
  perm : g.edges.Perm edges
  sorted : g.edges.Pairwise fun e e' => g.sortKey e ≤ g.sortKey e'
  stable : ∀ key, (g.edges.filter fun e => g.sortKey e = key) =
    edges.filter fun e => g.sortKey e = key
  found : ∀ id n, g.node? id = some n ↔ n ∈ g.nodes ∧ n.id = id
  leaving : g.nodes.flatMap (fun n => g.edgesFrom n.id) = g.edges

namespace Draft

variable {d d' : Draft} {g g' : Graph}

/-- The keys of a frozen graph are in order. -/
lemma sorted_freeze (hg : d.freeze = .ok g) :
    g.edges.Pairwise fun e e' => g.sortKey e ≤ g.sortKey e' := by
  have hsorted := List.pairwise_mergeSort g.keyLe_trans g.keyLe_total d.edges
  rw [← edges_freeze hg] at hsorted
  exact hsorted.imp of_decide_eq_true

/-- Edges with equal keys keep their order. -/
lemma filter_sortKey_freeze (hg : d.freeze = .ok g) (key : ℤ ×ₗ ℤ ×ₗ String) :
    (g.edges.filter fun e => g.sortKey e = key) = d.edges.filter fun e => g.sortKey e = key := by
  rw [edges_freeze hg, filter_mergeSort g.keyLe_trans g.keyLe_total]
  refine List.mergeSort_of_pairwise (List.pairwise_of_forall_mem_list fun e he e' he' => ?_)
  have hkey := of_decide_eq_true (List.mem_filter.mp he).2
  have hkey' := of_decide_eq_true (List.mem_filter.mp he').2
  rw [Graph.keyLe, hkey, hkey']
  exact decide_eq_true le_rfl

/-- The edges of a frozen graph are those that leave its nodes, node after node. -/
lemma flatMap_edgesFrom_freeze (hg : d.freeze = .ok g) :
    g.nodes.flatMap (fun n => g.edgesFrom n.id) = g.edges := by
  have hwell := wellFormed_of_freeze hg
  have horder : ∀ n ∈ g.nodes, g.orderOf n.id = n.order := by
    intro n hn
    rw [Graph.orderOf, hwell.node?_eq_some_iff.mpr ⟨hn, rfl⟩]
    rfl
  have hgroup : ∀ n ∈ g.nodes, g.edgesFrom n.id =
      g.edges.filter fun e => g.orderOf e.source = n.order := by
    intro n hn
    refine List.filter_congr fun e he => ?_
    obtain ⟨⟨n', hn', hid⟩, -⟩ := hwell.joins e he
    rw [Bool.eq_iff_iff, beq_iff_eq, decide_eq_true_eq, ← hid, horder n' hn']
    obtain ⟨i, hi⟩ := List.mem_iff_getElem?.mp hn
    rw [hwell.order_eq i n hi, show n.id = nodeId (i + 1) from hwell.id_eq i n hi,
      hwell.id_eq_iff hn', Int.natCast_succ]
  calc g.nodes.flatMap (fun n => g.edgesFrom n.id)
      = g.nodes.flatMap fun n => g.edges.filter fun e => g.orderOf e.source = n.order :=
        List.flatMap_congr hgroup
    _ = (g.nodes.map Graph.Node.order).flatMap fun k =>
          g.edges.filter fun e => g.orderOf e.source = k := by rw [List.flatMap_map]
    _ = g.edges := by
      refine flatMap_filter_eq hwell.orders_increase (fun e he => ?_)
        ((sorted_freeze hg).imp fun hle => ?_)
      · obtain ⟨⟨n, hn, hid⟩, -⟩ := hwell.joins e he
        rw [← hid, horder n hn]
        exact List.mem_map_of_mem hn
      · rcases Prod.Lex.toLex_le_toLex.mp hle with hlt | ⟨heq, -⟩
        · exact hlt.le
        · exact heq.le

/-- **What a frozen draft is.** -/
lemma freezes_freeze (hg : d.freeze = .ok g) : g.Freezes d.marks d.edges where
  nodes := (freeze_eq_ok hg).1
  perm := (freeze_eq_ok hg).2.1
  sorted := sorted_freeze hg
  stable := filter_sortKey_freeze hg
  found _ _ := (wellFormed_of_freeze hg).node?_eq_some_iff
  leaving := flatMap_edgesFrom_freeze hg

/-- **More nodes and edges extend a frozen graph**: its nodes stay the first ones, and its edges
stay in their order, with others between them.

**Proof sketch.** The keys of the edges that were there are the same in both graphs, and a part of a
list, sorted, is a part of the sorted list. -/
lemma extends_freeze (hmarks : d.marks <+: d'.marks) (hedges : d.edges.Sublist d'.edges)
    (hg : d.freeze = .ok g) (hg' : d'.freeze = .ok g') :
    g.nodes <+: g'.nodes ∧ g.edges.Sublist g'.edges := by
  constructor
  · obtain ⟨more, hmore⟩ := hmarks
    rw [(freeze_eq_ok hg).1, (freeze_eq_ok hg').1, nodes_eq, nodes_eq, ← hmore, nodesBehind_append]
    exact List.prefix_append _ _
  · have horder : ∀ id, Placed 0 d.size id → g.orderOf id = g'.orderOf id := by
      rintro id ⟨k, hlow, hhigh, rfl⟩
      have hplace : Placed 0 d'.size (nodeId k) :=
        Placed.nodeId_iff.mpr ⟨hlow, hhigh.trans hmarks.length_le⟩
      rw [orderOf_freeze hg (Placed.nodeId_iff.mpr ⟨hlow, hhigh⟩), orderOf_freeze hg' hplace]
    have hkey : ∀ e ∈ d.edges, g.sortKey e = g'.sortKey e := by
      intro e he
      obtain ⟨hsource, htarget⟩ := (freeze_eq_ok hg).2.2 e he
      rw [Graph.sortKey, Graph.sortKey, horder _ hsource, horder _ htarget]
    have hsame : d.edges.mergeSort g.keyLe = d.edges.mergeSort g'.keyLe := by
      have hmap := List.map_mergeSort (f := id) (r := g.keyLe) (s := g'.keyLe)
        fun e (he : e ∈ d.edges) e' he' => by
          rw [Graph.keyLe, hkey e he, hkey e' he']
          rfl
      simpa using hmap
    rw [edges_freeze hg, edges_freeze hg', hsame]
    exact mergeSort_sublist g'.keyLe_trans g'.keyLe_total hedges

/-! ## Histories -/

/-- A call that draws on a draft. -/
inductive Operation where
  | add (mark : Mark)
  | addEdge (edge : Graph.Edge)
  | connect (entries : List Entry) (target : String)

/-- The marks that a call adds. -/
def Operation.marks : Operation → List Mark
  | .add mark => [mark]
  | .addEdge _ => []
  | .connect _ _ => []

/-- The edges that a call records: one for each open end if it connects ends to a node. -/
def Operation.edges : Operation → List Graph.Edge
  | .add _ => []
  | .addEdge edge => [edge]
  | .connect entries target => entries.map fun entry => ⟨entry.node, target, entry.label⟩

/-- A draft after a call. -/
def perform (d : Draft) : Operation → Draft
  | .add mark => d.add mark
  | .addEdge edge => d.addEdge edge
  | .connect entries target => d.connect entries target

/-- The draft that a history of calls draws. -/
def drawn (history : List Operation) : Draft :=
  history.foldl perform empty

/-- A call adds its marks and its edges. -/
lemma perform_eq (d : Draft) (call : Operation) :
    d.perform call = ⟨d.marks ++ call.marks, d.edges ++ call.edges⟩ := by
  cases call <;> simp [perform, add, addEdge, connect, link, Operation.marks, Operation.edges]

/-- **A history adds** the marks and the edges of its calls. -/
lemma drawn_eq (history : List Operation) :
    drawn history = ⟨history.flatMap Operation.marks, history.flatMap Operation.edges⟩ := by
  induction history using List.reverseRecOn with
  | nil => rfl
  | append_singleton history call ih =>
    rw [drawn, List.foldl_append, ← drawn, ih]
    simp [perform_eq]

lemma marks_drawn (history : List Operation) :
    (drawn history).marks = history.flatMap Operation.marks := by
  rw [drawn_eq]

lemma edges_drawn (history : List Operation) :
    (drawn history).edges = history.flatMap Operation.edges := by
  rw [drawn_eq]

/-- **Freezing a history.** For every history of calls, in whatever order nodes and edges were
added: the draft freezes if and only if both endpoints of every edge are among its nodes. If it does
not, the first edge with another endpoint is reported, with the first such endpoint. If it does, the
graph holds the nodes in their order and the edges sorted by source, target and label, and all
further calls after which the draft freezes again extend the nodes and keep the edges in their
order. -/
theorem freeze_drawn (history : List Operation) :
    let marks := history.flatMap Operation.marks
    let edges := history.flatMap Operation.edges
    ((∃ g, (drawn history).freeze = .ok g) ↔
        ∀ e ∈ edges, Placed 0 marks.length e.source ∧ Placed 0 marks.length e.target) ∧
      (∀ fault, (drawn history).freeze = .error fault ↔ FirstDangling marks.length edges fault) ∧
      ∀ g, (drawn history).freeze = .ok g → g.Freezes marks edges ∧
        ∀ more g', (drawn (history ++ more)).freeze = .ok g' →
          g.nodes <+: g'.nodes ∧ g.edges.Sublist g'.edges := by
  intro marks edges
  have hdrawn : drawn history = ⟨marks, edges⟩ := drawn_eq history
  refine ⟨?_, fun fault => ?_, fun g hg => ⟨?_, fun more g' hg' => ?_⟩⟩
  · rw [hdrawn]
    exact exists_freeze_iff
  · rw [hdrawn]
    exact freeze_eq_error_iff
  · rw [hdrawn] at hg
    exact freezes_freeze hg
  · refine extends_freeze ?_ ?_ hg hg'
    · rw [marks_drawn, marks_drawn, List.flatMap_append]
      exact List.prefix_append _ _
    · rw [edges_drawn, edges_drawn, List.flatMap_append]
      exact List.sublist_append_left _ _

/-- An edge may be added before its target, and an edge that is added later may come before it. -/
theorem freeze_drawn_of_early_edge :
    let history : List Operation := [.add ⟨.start, "start"⟩,
      .addEdge ⟨nodeId 1, nodeId 3, some "b"⟩, .add ⟨.action, "a"⟩, .add ⟨.finish, "end"⟩]
    let more : List Operation := [.connect [⟨nodeId 1, some "a"⟩, ⟨nodeId 2, none⟩] (nodeId 3)]
    ∃ g g', (drawn history).freeze = .ok g ∧ (drawn (history ++ more)).freeze = .ok g' ∧
      g.nodes <+: g'.nodes ∧ g.edges.Sublist g'.edges := by
  intro history more
  obtain ⟨g, hg⟩ := (freeze_drawn history).1.mpr
    (by simp [history, Operation.marks, Operation.edges])
  obtain ⟨g', hg'⟩ := (freeze_drawn (history ++ more)).1.mpr
    (by simp [history, more, Operation.marks, Operation.edges])
  exact ⟨g, g', hg, hg', ((freeze_drawn history).2.2 g hg).2 more g' hg'⟩

end Draft

end Flowchart
