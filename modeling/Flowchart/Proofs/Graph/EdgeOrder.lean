import Flowchart.Proofs.Graph.WellFormed
import Mathlib.Data.List.Sort
import Mathlib.Data.Prod.Lex
import Mathlib.Data.String.Basic

set_option relaxedAutoImplicit false
set_option autoImplicit false

/-!
# The order of edges

The edges of a frozen graph are those of the draft, sorted by the order of their sources, the order
of their targets and their labels. Sorting is stable: edges with the same key stay as they were, and
more edges do not change the order of those that there are.

## Main definitions

* `Flowchart.Graph.orderOf`: the order of the node with an identifier.
* `Flowchart.Graph.sortKey`: what the edges of a graph are sorted by.

## Main results

* `Flowchart.mergeSort_sublist`: a part of a list, sorted, is a part of the sorted list.
* `Flowchart.filter_mergeSort`: elements may be left out before or after sorting.
* `Flowchart.Draft.edges_freeze`: the edges of a frozen graph are sorted by their keys.
* `Flowchart.Draft.edges_freeze_of_increasing`: edges that leave the nodes in their order are not
  moved.
-/

namespace Flowchart

/-! ## Sorting -/

section Sorting

variable {α : Type} {le : α → α → Bool} {l l' : List α}
  (trans : ∀ a b c, le a b = true → le b c = true → le a c = true)
  (total : ∀ a b, (le a b || le b a) = true)

include trans total

/-- A new first element comes behind those that it must follow, and before all others. -/
lemma mergeSort_cons_eq (a : α) (l : List α) :
    l.mergeSort le = (l.mergeSort le).filter (fun b => !le a b) ++ (l.mergeSort le).filter (le a) ∧
      (a :: l).mergeSort le =
        (l.mergeSort le).filter (fun b => !le a b) ++ a :: (l.mergeSort le).filter (le a) := by
  obtain ⟨front, back, hcons, hrest, hfront⟩ := List.mergeSort_cons trans total a l
  have hback : ∀ b ∈ back, le a b = true := by
    have hsorted := List.pairwise_mergeSort trans total (a :: l)
    rw [hcons] at hsorted
    exact (List.pairwise_cons.mp (List.pairwise_append.mp hsorted).2.1).1
  have hkeep : (l.mergeSort le).filter (fun b => !le a b) = front := by
    rw [hrest, List.filter_append, List.filter_eq_self.mpr hfront,
      List.filter_eq_nil_iff.mpr (by simpa using hback), List.append_nil]
  have hlater : (l.mergeSort le).filter (le a) = back := by
    rw [hrest, List.filter_append, List.filter_eq_nil_iff.mpr (by simpa using hfront),
      List.filter_eq_self.mpr hback, List.nil_append]
  rw [hkeep, hlater]
  exact ⟨hrest, hcons⟩

/-- **A part of a list**, sorted, is a part of the sorted list. -/
lemma mergeSort_sublist (h : l.Sublist l') : (l.mergeSort le).Sublist (l'.mergeSort le) := by
  induction h with
  | slnil => exact .refl _
  | @cons l l' a h ih =>
    obtain ⟨hrest, hcons⟩ := mergeSort_cons_eq trans total a l'
    rw [hrest] at ih
    rw [hcons]
    exact ih.middle a
  | @cons_cons l l' a h ih =>
    rw [(mergeSort_cons_eq trans total a l).2, (mergeSort_cons_eq trans total a l').2]
    exact (ih.filter _).append ((ih.filter _).cons_cons a)

/-- **Leaving out elements** before or after sorting makes no difference. -/
lemma filter_mergeSort (p : α → Bool) (l : List α) :
    (l.mergeSort le).filter p = (l.filter p).mergeSort le := by
  have hall : ((l.filter p).mergeSort le).filter p = (l.filter p).mergeSort le :=
    List.filter_eq_self.mpr fun a ha => (List.mem_filter.mp (List.mem_mergeSort.mp ha)).2
  have hpart := (mergeSort_sublist trans total (List.filter_sublist (p := p) (l := l))).filter p
  rw [hall] at hpart
  refine (hpart.eq_of_length ?_).symm
  rw [List.length_mergeSort, ((List.mergeSort_perm l le).filter p).length_eq]

end Sorting

/-! ## Keys -/

/-- Characters are not after others if and only if the others are not before them. -/
lemma Text.charsLe_iff {cs ds : List Char} : Text.charsLe cs ds = true ↔ ¬ ds < cs := by
  induction cs generalizing ds with
  | nil => simp [Text.charsLe]
  | cons c cs ih =>
    cases ds with
    | nil => simp [Text.charsLe]
    | cons d ds =>
      have hlt : c.toNat < d.toNat ↔ c < d := Iff.rfl
      simp only [Text.charsLe, Bool.or_eq_true, decide_eq_true_eq, Bool.and_eq_true, beq_iff_eq,
        List.cons_lt_cons_iff, ih, hlt]
      rcases lt_trichotomy c d with h | rfl | h
      · simp [h, h.ne', h.not_gt]
      · simp
      · simp [h, h.ne', h.not_gt]

/-- The order of text is that of its code points, from the first one on. -/
lemma Text.le_iff {s t : String} : Text.le s t = true ↔ s ≤ t :=
  Text.charsLe_iff

namespace Graph

/-- The order of the node with an identifier. -/
def orderOf (g : Graph) (id : String) : ℤ :=
  (g.node? id).elim 0 Node.order

/-- What the edges of a graph are sorted by: the order of the source, the order of the target, and
the label. An absent label counts as the empty one. -/
def sortKey (g : Graph) (e : Edge) : ℤ ×ₗ ℤ ×ₗ String :=
  toLex (g.orderOf e.source, toLex (g.orderOf e.target, e.label.getD ""))

/-- Whether the key of an edge is at most that of another one. -/
def keyLe (g : Graph) (e e' : Edge) : Bool :=
  g.sortKey e ≤ g.sortKey e'

variable {g : Graph}

lemma keyLe_trans (e e' e'' : Edge) (h : g.keyLe e e' = true) (h' : g.keyLe e' e'' = true) :
    g.keyLe e e'' = true := by
  simp only [keyLe, decide_eq_true_eq] at h h' ⊢
  exact h.trans h'

lemma keyLe_total (e e' : Edge) : (g.keyLe e e' || g.keyLe e' e) = true := by
  simp only [keyLe, Bool.or_eq_true, decide_eq_true_eq]
  exact le_total _ _

/-- **A node is found** by its identifier. -/
lemma WellFormed.node?_eq_some_iff (h : g.WellFormed) {id : String} {n : Node} :
    g.node? id = some n ↔ n ∈ g.nodes ∧ n.id = id := by
  constructor
  · intro hfind
    have hid := List.find?_some hfind
    exact ⟨List.mem_reverse.mp (List.mem_of_find?_eq_some hfind), beq_iff_eq.mp hid⟩
  · rintro ⟨hn, rfl⟩
    cases hfind : g.node? n.id with
    | none => exact absurd (by simp) (List.find?_eq_none.mp hfind n (List.mem_reverse.mpr hn))
    | some n' =>
      have hn' := List.mem_reverse.mp (List.mem_of_find?_eq_some hfind)
      have hid := List.find?_some hfind
      rw [List.inj_on_of_nodup_map h.ids_nodup hn' hn (beq_iff_eq.mp hid)]

/-- The order of the node with an identifier is the place that the identifier names. -/
lemma WellFormed.orderOf_eq (h : g.WellFormed) {k : ℕ} (hk : ∃ n ∈ g.nodes, n.id = nodeId k) :
    g.orderOf (nodeId k) = k := by
  obtain ⟨n, hn, hid⟩ := hk
  rw [orderOf, h.node?_eq_some_iff.mpr ⟨hn, hid⟩]
  exact (h.id_eq_iff hn).mp hid

end Graph

/-! ## The edges of frozen graphs -/

namespace Draft

variable {d : Draft} {g : Graph}

/-- The order of an identifier in a frozen graph is the place that it names. -/
lemma orderOf_freeze (hg : d.freeze = .ok g) {k : ℕ} (hk : Placed 0 d.size (nodeId k)) :
    g.orderOf (nodeId k) = k := by
  refine (wellFormed_of_freeze hg).orderOf_eq (List.mem_map.mp ?_)
  rw [(freeze_eq_ok hg).1, nodes_eq, mem_map_id_nodesBehind_iff, Nat.zero_add]
  exact hk

/-- The order of an identifier in a frozen graph is one more than its rank. -/
lemma orderOf_of_rank? (hg : d.freeze = .ok g) {id : String} {r : ℕ} (hr : d.rank? id = some r) :
    g.orderOf id = (r + 1 : ℕ) := by
  obtain ⟨-, rfl⟩ := rank?_eq_some_iff.mp hr
  exact orderOf_freeze hg (exists_rank?_iff.mp ⟨r, hr⟩)

/-- Ranked edges are in order if and only if their keys are. -/
lemma rankedLe_eq_keyLe (hg : d.freeze = .ok g) {e e' : Graph.Edge} {r r' : RankedEdge}
    (h : d.rankEdge e = .ok r) (h' : d.rankEdge e' = .ok r') :
    r.le r' = g.keyLe r.edge r'.edge := by
  obtain ⟨hsource, htarget, rfl⟩ := rankEdge_eq_ok_iff.mp h
  obtain ⟨hsource', htarget', rfl⟩ := rankEdge_eq_ok_iff.mp h'
  rw [Bool.eq_iff_iff]
  simp only [Graph.keyLe, Graph.sortKey, orderOf_of_rank? hg hsource, orderOf_of_rank? hg htarget,
    orderOf_of_rank? hg hsource', orderOf_of_rank? hg htarget', decide_eq_true_eq,
    Prod.Lex.toLex_le_toLex, Int.ofNat_lt, Int.ofNat_inj, Nat.add_lt_add_iff_right,
    Nat.add_right_cancel_iff]
  simp only [RankedEdge.le, RankedEdge.text, Bool.or_eq_true, Bool.and_eq_true, decide_eq_true_eq,
    beq_iff_eq, Text.le_iff]

/-- **The edges of a frozen graph** are those of the draft, sorted by their keys. -/
theorem edges_freeze (hg : d.freeze = .ok g) : g.edges = d.edges.mergeSort g.keyLe := by
  obtain ⟨ranked, hranked, hgraph⟩ := freeze_eq_ok_iff.mp hg
  have hle : ∀ r ∈ ranked, ∀ r' ∈ ranked, r.le r' = g.keyLe r.edge r'.edge := by
    have hsource : ∀ r ∈ ranked, ∃ e, d.rankEdge e = .ok r := by
      intro r hr
      obtain ⟨i, hi, rfl⟩ := List.getElem_of_mem hr
      have hall := mapM_eq_ok_iff.mp hranked
      exact ⟨_, hall.get (by rw [hall.length_eq]; exact hi) hi⟩
    intro r hr r' hr'
    obtain ⟨e, he⟩ := hsource r hr
    obtain ⟨e', he'⟩ := hsource r' hr'
    exact rankedLe_eq_keyLe hg he he'
  calc g.edges = (ranked.mergeSort RankedEdge.le).map RankedEdge.edge :=
        congrArg Graph.edges hgraph
    _ = (ranked.map RankedEdge.edge).mergeSort g.keyLe := List.map_mergeSort hle
    _ = d.edges.mergeSort g.keyLe := by rw [(map_edge_of_mapM hranked).1]

/-- Edges that are in order already stay as they were drawn. -/
lemma freeze_of_sorted {ranked : List RankedEdge} (hranked : d.edges.mapM d.rankEdge = .ok ranked)
    (hsorted : ranked.Pairwise fun r r' => r.le r' = true) :
    d.freeze = .ok ⟨d.nodes, d.edges⟩ := by
  refine freeze_eq_ok_iff.mpr ⟨ranked, hranked, ?_⟩
  rw [List.mergeSort_of_pairwise hsorted, (map_edge_of_mapM hranked).1]

/-- Edges that leave the nodes in their order stay as they were drawn. -/
lemma edges_freeze_of_increasing (hg : d.freeze = .ok g) {places : List ℕ}
    (hsources : d.edges.map Graph.Edge.source = places.map nodeId)
    (hplaces : places.Pairwise (· < ·)) : g.edges = d.edges := by
  have horder : ∀ k ∈ places, g.orderOf (nodeId k) = k := by
    intro k hk
    have hmem : nodeId k ∈ d.edges.map Graph.Edge.source := hsources ▸ List.mem_map_of_mem hk
    obtain ⟨e, he, hsource⟩ := List.mem_map.mp hmem
    exact orderOf_freeze hg (hsource ▸ ((freeze_eq_ok hg).2.2 e he).1)
  have hincrease : (d.edges.map Graph.Edge.source).Pairwise fun id id' =>
      g.orderOf id < g.orderOf id' := by
    rw [hsources, List.pairwise_map]
    refine hplaces.imp_of_mem fun hj hk hlt => ?_
    rw [horder _ hj, horder _ hk]
    exact Int.ofNat_lt.mpr hlt
  rw [edges_freeze hg]
  refine List.mergeSort_of_pairwise ((List.pairwise_map.mp hincrease).imp fun hlt => ?_)
  exact decide_eq_true (Prod.Lex.toLex_le_toLex.mpr (.inl hlt))

end Draft

end Flowchart
