import Flowchart.Graph.Diagram
import Flowchart.Graph.Fingerprint
import Flowchart.Proofs.Graph.DiagramText
import Flowchart.Proofs.Graph.History

set_option relaxedAutoImplicit false
set_option autoImplicit false

/-!
# Reordering edges

The order in which the edges of a graph are drawn cannot be seen in what the graph is used for.
Sorting does not undo it completely: edges between the same nodes stay as they were drawn if one has
an empty label and another has none. But all texts that are made from a graph write an absent label
like an empty one.

## Main definitions

* `Flowchart.Graph.Edge.filled`: an edge with an empty label for an absent one.

## Main results

* `Flowchart.Draft.sortKey_eq_iff`: what edges are sorted by determines them up to absent labels.
* `Flowchart.Draft.freeze_reordered`: histories that add the same nodes and, in whatever order, the
  same edges.
-/

namespace Flowchart

/-! ## Absent labels -/

namespace Graph

/-- An edge with an empty label for an absent one. -/
def Edge.filled (e : Edge) : Edge :=
  { e with label := some (e.label.getD "") }

variable {g g' : Graph}

@[simp] lemma Edge.canonicalLine_filled (e : Edge) : e.filled.canonicalLine = e.canonicalLine :=
  rfl

@[simp] lemma edgeLine_filled (e : Edge) : Diagram.edgeLine e.filled = Diagram.edgeLine e := by
  have hlabel : Diagram.edgeLabel e.filled.label = Diagram.edgeLabel e.label :=
    Diagram.edgeLabel_eq_of_getD_eq rfl
  rw [Diagram.edgeLine, Diagram.edgeLine, hlabel]
  rfl

@[simp] lemma sortKey_filled (e : Edge) : g.sortKey e.filled = g.sortKey e :=
  rfl

/-- The lines of edges can be read off the edges with absent labels filled in. -/
lemma map_eq_of_map_filled {α : Type} {f : Edge → α} (hf : ∀ e : Edge, f e.filled = f e)
    (h : g.edges.map Edge.filled = g'.edges.map Edge.filled) : g.edges.map f = g'.edges.map f := by
  have hmap : ∀ l : List Edge, (l.map Edge.filled).map f = l.map f := fun l => by
    rw [List.map_map]
    exact List.map_congr_left fun e _ => hf e
  rw [← hmap, h, hmap]

/-- **An absent label is written like an empty one** in the text that is hashed. -/
lemma canonicalText_congr (hnodes : g.nodes = g'.nodes)
    (hedges : g.edges.map Edge.filled = g'.edges.map Edge.filled) (kind : OwnerKind) (id : String) :
    canonicalText kind id g = canonicalText kind id g' := by
  rw [canonicalText, canonicalText, hnodes, map_eq_of_map_filled Edge.canonicalLine_filled hedges]

/-- **An absent label is written like an empty one** in the diagram. -/
lemma diagram_congr (hnodes : g.nodes = g'.nodes)
    (hedges : g.edges.map Edge.filled = g'.edges.map Edge.filled) : g.diagram = g'.diagram :=
  diagram_eq (by rw [hnodes]) (map_eq_of_map_filled edgeLine_filled hedges)

end Graph

/-! ## Sorted edges -/

namespace Draft

variable {d d' : Draft} {g g' : Graph}

/-- **What edges are sorted by** determines them up to absent labels. -/
lemma sortKey_eq_iff (hg : d.freeze = .ok g) {e e' : Graph.Edge} (he : d.Joins e)
    (he' : d.Joins e') : g.sortKey e = g.sortKey e' ↔ e.filled = e'.filled := by
  have horder : ∀ id id', Placed 0 d.size id → Placed 0 d.size id' →
      (g.orderOf id = g.orderOf id' ↔ id = id') := by
    rintro id id' ⟨j, hlow, hhigh, rfl⟩ ⟨k, hlow', hhigh', rfl⟩
    rw [orderOf_freeze hg (Placed.nodeId_iff.mpr ⟨hlow, hhigh⟩),
      orderOf_freeze hg (Placed.nodeId_iff.mpr ⟨hlow', hhigh'⟩), Int.ofNat_inj, nodeId_inj]
  simp only [Graph.sortKey, Graph.Edge.filled, toLex_inj, Prod.mk.injEq, Graph.Edge.mk.injEq,
    Option.some.injEq, horder _ _ he.1 he'.1, horder _ _ he.2 he'.2]

/-- Graphs with the same nodes sort edges by the same. -/
lemma sortKey_congr (h : g.nodes = g'.nodes) : g.sortKey = g'.sortKey := by
  funext e
  simp only [Graph.sortKey, Graph.orderOf, Graph.node?, h]

/-- **The order in which edges are drawn** cannot be seen once absent labels are filled in.

**Proof sketch.** The edges of both graphs are sorted by the same keys, and a key determines an
edge with its label filled in. So the two lists of such edges are sorted permutations of each
other. -/
lemma filled_edges_freeze (hmarks : d.marks = d'.marks) (hedges : d.edges.Perm d'.edges)
    (hg : d.freeze = .ok g) (hg' : d'.freeze = .ok g') :
    g.nodes = g'.nodes ∧ g.edges.map Graph.Edge.filled = g'.edges.map Graph.Edge.filled := by
  obtain ⟨hnodes, hperm, hjoins⟩ := freeze_eq_ok hg
  obtain ⟨hnodes', hperm', hjoins'⟩ := freeze_eq_ok hg'
  have hsame : g.nodes = g'.nodes := by
    rw [hnodes, hnodes', nodes, nodes, hmarks]
  have hall : (g.edges.map Graph.Edge.filled).Perm (g'.edges.map Graph.Edge.filled) :=
    ((hperm.trans hedges).trans hperm'.symm).map _
  have hsorted : (g.edges.map Graph.Edge.filled).Pairwise fun e e' =>
      g.sortKey e ≤ g.sortKey e' := by
    simpa only [List.pairwise_map, Graph.sortKey_filled] using sorted_freeze hg
  have hsorted' : (g'.edges.map Graph.Edge.filled).Pairwise fun e e' =>
      g.sortKey e ≤ g.sortKey e' := by
    simpa only [List.pairwise_map, Graph.sortKey_filled, sortKey_congr hsame]
      using sorted_freeze hg'
  refine ⟨hsame, hall.eq_of_pairwise (fun e e' he he' hle hle' => ?_) hsorted hsorted'⟩
  obtain ⟨a, ha, rfl⟩ := List.mem_map.mp he
  obtain ⟨b, hb, rfl⟩ := List.mem_map.mp (hall.mem_iff.mpr he')
  rw [Graph.sortKey_filled, Graph.sortKey_filled] at hle hle'
  exact (sortKey_eq_iff hg (hjoins a (hperm.subset ha)) (hjoins b (hperm.subset hb))).mp
    (le_antisymm hle hle')

/-- Whether a draft freezes does not depend on the order of its edges. -/
lemma exists_freeze_congr (hmarks : d.marks = d'.marks) (hedges : d.edges.Perm d'.edges) :
    (∃ g, d.freeze = .ok g) ↔ ∃ g, d'.freeze = .ok g := by
  rw [exists_freeze_iff, exists_freeze_iff]
  simp only [hedges.mem_iff, Joins, size, hmarks]

/-! ## Reordered histories -/

/-- **Reordering a history.** For every two histories that add the same nodes in the same order and
the same edges, each as often, in whatever order among themselves and among the nodes: either
neither of the drafts freezes, or both do. Then the graphs have the same nodes and, with absent
labels filled in, the same edges in the same order, and the texts that are hashed, the
fingerprints, the diagrams and the summaries are the same. -/
theorem freeze_reordered (history history' : List Operation)
    (hmarks : history.flatMap Operation.marks = history'.flatMap Operation.marks)
    (hedges : (history.flatMap Operation.edges).Perm (history'.flatMap Operation.edges)) :
    ((∃ fault, (drawn history).freeze = .error fault) ∧
        ∃ fault, (drawn history').freeze = .error fault) ∨
      ∃ g g', (drawn history).freeze = .ok g ∧ (drawn history').freeze = .ok g' ∧
        g.nodes = g'.nodes ∧ g.edges.map Graph.Edge.filled = g'.edges.map Graph.Edge.filled ∧
        (∀ kind id, g.canonicalText kind id = g'.canonicalText kind id) ∧
        (∀ kind id, g.fingerprint kind id = g'.fingerprint kind id) ∧
        g.diagram = g'.diagram ∧ g.summary = g'.summary := by
  rw [← marks_drawn, ← marks_drawn] at hmarks
  rw [← edges_drawn, ← edges_drawn] at hedges
  have hboth := exists_freeze_congr hmarks hedges
  cases hg : (drawn history).freeze with
  | error fault =>
    refine .inl ⟨⟨fault, rfl⟩, ?_⟩
    cases hg' : (drawn history').freeze with
    | error fault' => exact ⟨fault', rfl⟩
    | ok g' =>
      obtain ⟨g, hok⟩ := hboth.mpr ⟨g', hg'⟩
      rw [hg] at hok
      cases hok
  | ok g =>
    obtain ⟨g', hg'⟩ := hboth.mp ⟨g, hg⟩
    obtain ⟨hnodes, hfilled⟩ := filled_edges_freeze hmarks hedges hg hg'
    have htext := Graph.canonicalText_congr hnodes hfilled
    refine .inr ⟨g, g', rfl, hg', hnodes, hfilled, htext, fun kind id => ?_,
      Graph.diagram_congr hnodes hfilled, ?_⟩
    · rw [Graph.fingerprint, Graph.fingerprint, htext]
    · rw [Graph.summary, Graph.summary, hnodes]

/-- An edge without a label may come before or behind one with an empty label. -/
theorem freeze_reordered_of_tie :
    let history : List Operation := [.add ⟨.start, "start"⟩, .add ⟨.finish, "end"⟩,
      .addEdge ⟨nodeId 1, nodeId 2, none⟩, .addEdge ⟨nodeId 1, nodeId 2, some ""⟩]
    let history' : List Operation := [.add ⟨.start, "start"⟩,
      .connect [⟨nodeId 1, some ""⟩, ⟨nodeId 1, none⟩] (nodeId 2), .add ⟨.finish, "end"⟩]
    ∃ g g', (drawn history).freeze = .ok g ∧ (drawn history').freeze = .ok g' ∧
      g.edges ≠ g'.edges ∧ g.diagram = g'.diagram ∧
      ∀ kind id, g.fingerprint kind id = g'.fingerprint kind id := by
  intro history history'
  let bare : RankedEdge := ⟨0, 1, ⟨nodeId 1, nodeId 2, none⟩⟩
  let blank : RankedEdge := ⟨0, 1, ⟨nodeId 1, nodeId 2, some ""⟩⟩
  have hg : (drawn history).freeze = .ok ⟨(drawn history).nodes, (drawn history).edges⟩ :=
    freeze_of_sorted rfl (by decide : [bare, blank].Pairwise fun r r' => r.le r' = true)
  have hg' : (drawn history').freeze = .ok ⟨(drawn history').nodes, (drawn history').edges⟩ :=
    freeze_of_sorted rfl (by decide : [blank, bare].Pairwise fun r r' => r.le r' = true)
  obtain ⟨⟨fault, hfault⟩, -⟩ | ⟨g, g', hok, hok', -, -, -, hprint, hdiagram, -⟩ :=
    freeze_reordered history history' rfl (List.Perm.swap _ _ _)
  · rw [hg] at hfault
    cases hfault
  · refine ⟨g, g', hok, hok', ?_, hdiagram, hprint⟩
    rw [hg] at hok
    rw [hg'] at hok'
    cases hok
    cases hok'
    decide

end Draft

end Flowchart
