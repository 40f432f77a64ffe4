import Flowchart.Proofs.Graph.Frozen

set_option relaxedAutoImplicit false
set_option autoImplicit false

/-!
# Well-formed graphs

The nodes of a frozen draft are numbered from one on, and its edges run between them. So a node can
be told by its identifier, and its place can be read off there.

## Main definitions

* `Flowchart.nodesBehind`: the nodes that show given marks behind other nodes.
* `Flowchart.Graph.WellFormed`: nodes are numbered from one, and edges run between nodes.

## Main results

* `Flowchart.Draft.wellFormed_of_freeze`: a frozen draft is well formed.
* `Flowchart.Draft.mark?_of_mem`: what is shown at the identifier of a node is what the node shows.
-/

namespace Flowchart

/-! ## Nodes by their marks -/

/-- The nodes that show some marks behind `size` other nodes. -/
def nodesBehind (size : ℕ) (marks : List Mark) : List Graph.Node :=
  (marks.zipIdx (size + 1)).map fun (m, place) => ⟨nodeId place, m.kind, m.label, place⟩

/-- The nodes of a draft are those of its marks. -/
lemma Draft.nodes_eq (d : Draft) : d.nodes = nodesBehind 0 d.marks :=
  rfl

section Nodes

variable {size : ℕ} {m : Mark} {ms ns : List Mark}

@[simp] lemma nodesBehind_nil : nodesBehind size [] = [] :=
  rfl

/-- The node of a first mark has the next place. -/
@[simp] lemma nodesBehind_cons : nodesBehind size (m :: ms) =
    ⟨nodeId (size + 1), m.kind, m.label, (size + 1 : ℕ)⟩ :: nodesBehind (size + 1) ms :=
  rfl

/-- The nodes of two rows of marks are those of both. -/
lemma nodesBehind_append :
    nodesBehind size (ms ++ ns) = nodesBehind size ms ++ nodesBehind (size + ms.length) ns := by
  rw [nodesBehind, List.zipIdx_append, List.map_append, Nat.add_right_comm]
  rfl

/-- What the nodes of marks hold by their places alone. -/
lemma map_nodesBehind {α : Type} {f : Graph.Node → α} {h : ℕ → α}
    (hf : ∀ (k : ℕ) (m : Mark), f ⟨nodeId k, m.kind, m.label, k⟩ = h k) :
    (nodesBehind size ms).map f = (List.range' (size + 1) ms.length).map h := by
  rw [nodesBehind, List.map_map, ← List.zipIdx_map_snd (size + 1) ms, List.map_map]
  exact List.map_congr_left fun x _ => hf x.2 x.1

/-- What the nodes of marks show. -/
lemma map_mark_nodesBehind :
    (nodesBehind size ms).map (fun n => (⟨n.kind, n.label⟩ : Mark)) = ms := by
  rw [nodesBehind, List.map_map, Function.comp_def]
  exact List.zipIdx_map_fst (size + 1) ms

/-- Marks of other kinds have no nodes of a kind. -/
lemma filter_nodesBehind_eq_nil {kind : NodeKind} (h : ∀ m ∈ ms, m.kind ≠ kind) :
    (nodesBehind size ms).filter (fun n => n.kind == kind) = [] := by
  rw [List.filter_eq_nil_iff]
  intro n hn
  obtain ⟨⟨m, k⟩, hm, rfl⟩ := List.mem_map.mp hn
  simpa using h m (List.fst_mem_of_mem_zipIdx hm)

/-- The identifiers of the nodes of marks are those of a range of places. -/
lemma mem_map_id_nodesBehind_iff {id : String} :
    id ∈ (nodesBehind size ms).map Graph.Node.id ↔ Placed size (size + ms.length) id := by
  rw [map_nodesBehind (h := nodeId) fun _ _ => rfl, List.mem_map]
  constructor
  · rintro ⟨k, hk, rfl⟩
    rw [List.mem_range'_1] at hk
    rw [Placed.nodeId_iff]
    omega
  · rintro ⟨k, hlow, hhigh, rfl⟩
    refine ⟨k, ?_, rfl⟩
    rw [List.mem_range'_1]
    omega

end Nodes

/-! ## Well-formed graphs -/

/-- The nodes of a graph are numbered from one on, in their identifiers and in their orders, and
both ends of each edge are nodes. -/
structure Graph.WellFormed (g : Graph) : Prop where
  id_eq : ∀ (i : ℕ) (n : Node), g.nodes[i]? = some n → n.id = "n" ++ toString (i + 1)
  order_eq : ∀ (i : ℕ) (n : Node), g.nodes[i]? = some n → n.order = (i : Int) + 1
  ids_nodup : (g.nodes.map Node.id).Nodup
  orders_increase : (g.nodes.map Node.order).Pairwise (· < ·)
  joins : ∀ e ∈ g.edges, (∃ n ∈ g.nodes, n.id = e.source) ∧ ∃ n ∈ g.nodes, n.id = e.target

/-- The identifier of a node tells its order. -/
lemma Graph.WellFormed.id_eq_iff {g : Graph} (h : g.WellFormed) {n : Graph.Node} {k : ℕ}
    (hn : n ∈ g.nodes) : n.id = nodeId k ↔ n.order = k := by
  obtain ⟨i, hi⟩ := List.mem_iff_getElem?.mp hn
  have hid : n.id = nodeId (i + 1) := h.id_eq i n hi
  rw [hid, nodeId_inj, h.order_eq i n hi]
  omega

namespace Draft

variable {d : Draft} {g : Graph}

/-- **A frozen draft is well formed.** -/
lemma wellFormed_of_freeze (hg : d.freeze = .ok g) : g.WellFormed := by
  obtain ⟨hnodes, hedges, hjoins⟩ := freeze_eq_ok hg
  have hnode : ∀ id, Placed 0 d.size id → ∃ n ∈ g.nodes, n.id = id := by
    intro id hid
    rw [← Nat.zero_add d.size, size, ← mem_map_id_nodesBehind_iff, ← nodes_eq, ← hnodes] at hid
    exact List.mem_map.mp hid
  refine ⟨fun i n hn => ?_, fun i n hn => ?_, ?_, ?_, fun e he => ?_⟩
  · rw [hnodes, getElem?_nodes] at hn
    obtain ⟨m, -, rfl⟩ := Option.map_eq_some_iff.mp hn
    rfl
  · rw [hnodes, getElem?_nodes] at hn
    obtain ⟨m, -, rfl⟩ := Option.map_eq_some_iff.mp hn
    exact Int.natCast_succ i
  · rw [hnodes, nodes_eq, map_nodesBehind (h := nodeId) fun _ _ => rfl, List.nodup_iff_pairwise_ne,
      List.pairwise_map]
    exact List.Pairwise.imp (fun hne heq => hne (nodeId_inj.mp heq)) List.nodup_range'
  · rw [hnodes, nodes_eq, map_nodesBehind (h := fun k => (k : Int)) fun _ _ => rfl,
      List.pairwise_map]
    exact List.Pairwise.imp Int.ofNat_lt.mpr List.pairwise_lt_range'
  · obtain ⟨hsource, htarget⟩ := hjoins e (hedges.subset he)
    exact ⟨hnode _ hsource, hnode _ htarget⟩

/-- The nodes of a frozen draft show its marks. -/
lemma map_mark_freeze (hg : d.freeze = .ok g) :
    g.nodes.map (fun n => (⟨n.kind, n.label⟩ : Mark)) = d.marks := by
  rw [(freeze_eq_ok hg).1, nodes_eq, map_mark_nodesBehind]

/-- What is shown at the identifier of a node is what the node shows. -/
lemma mark?_of_mem (hg : d.freeze = .ok g) {n : Graph.Node} (hn : n ∈ g.nodes) :
    g.mark? n.id = some ⟨n.kind, n.label⟩ := by
  obtain ⟨i, m, hm, rfl⟩ := mem_nodes_iff.mp ((freeze_eq_ok hg).1 ▸ hn)
  exact mark?_freeze hg hm

/-- The kind of a node is the one that is shown at its identifier. -/
lemma kind_of_mem (hg : d.freeze = .ok g) {n : Graph.Node} {id : String} {m : Mark}
    (hn : n ∈ g.nodes) (hid : n.id = id) (hm : g.mark? id = some m) : n.kind = m.kind := by
  subst hid
  rw [mark?_of_mem hg hn, Option.some.injEq] at hm
  rw [← hm]

end Draft

end Flowchart
