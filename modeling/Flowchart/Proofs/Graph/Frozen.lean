import Flowchart.Graph.Draft
import Mathlib.Data.List.Basic
import Mathlib.Data.List.Forall2
import Mathlib.Tactic.Common

set_option relaxedAutoImplicit false
set_option autoImplicit false

/-!
# Frozen drafts

What a draft says about the graph that it freezes to. The node in place `k` has the identifier
`nodeId k`, identifiers of different places differ, and a draft whose edges run between places of
its own freezes to a graph with the same nodes and, up to order, the same edges.

## Main definitions

* `Flowchart.Placed`: the identifiers of a range of places.
* `Flowchart.Graph.mark?`: what the node of an identifier shows.

## Main results

* `Flowchart.nodeId_inj`: a place is determined by its identifier.
* `Flowchart.Draft.exists_freeze`, `Flowchart.Draft.freeze_eq_ok`: a draft freezes if its edges run
  between its nodes, and then keeps its nodes and edges.
* `Flowchart.Draft.mark?_freeze`: a frozen node shows the mark that was added in its place.
-/

namespace Flowchart

/-! ## Lists of results -/

section Results

variable {ε α β : Type} {f : α → Except ε β} {l : List α} {ys : List β}

/-- The results for a list are those for its members, if there are all of them. -/
lemma mapM_eq_ok_iff : l.mapM f = .ok ys ↔ List.Forall₂ (fun x y => f x = .ok y) l ys := by
  induction l generalizing ys with
  | nil => cases ys <;> simp [pure, Except.pure]
  | cons x l ih =>
    rw [List.mapM_cons, List.forall₂_cons_left_iff]
    cases hx : f x with
    | error fault => simp [bind, Except.bind]
    | ok y =>
      cases hl : l.mapM f with
      | error fault => simp [bind, Except.bind, ← ih, hl]
      | ok ys' => simp [bind, Except.bind, pure, Except.pure, ← ih, hl, eq_comm]

/-- There are results for a list if there is one for each of its members, and they are as these are.
-/
lemma exists_mapM_eq_ok {p : β → Prop} (h : ∀ x ∈ l, ∃ y, f x = .ok y ∧ p y) :
    ∃ ys, l.mapM f = .ok ys ∧ ∀ y ∈ ys, p y := by
  simp only [mapM_eq_ok_iff]
  induction l with
  | nil => exact ⟨[], .nil, fun y hy => absurd hy List.not_mem_nil⟩
  | cons x l ih =>
    obtain ⟨⟨y, hy, hp⟩, hl⟩ := List.forall_mem_cons.mp h
    obtain ⟨ys, hys, hall⟩ := ih hl
    exact ⟨y :: ys, .cons hy hys, List.forall_mem_cons.mpr ⟨hp, hall⟩⟩

end Results

/-! ## Identifiers -/

/-- The identifier of a place is the letter `n` before the decimal digits of the place. -/
lemma toList_nodeId (k : ℕ) : (nodeId k).toList = 'n' :: Nat.toDigits 10 k := by
  have hdigits : (toString k).toList = Nat.toDigits 10 k := by
    rw [Nat.toString_eq_ofList_toDigits, String.toList_ofList]
  rw [nodeId, String.toList_append, hdigits]
  rfl

/-- **A place is determined by its identifier.** -/
lemma nodeId_inj {j k : ℕ} : nodeId j = nodeId k ↔ j = k := by
  refine ⟨fun h => ?_, fun h => h ▸ rfl⟩
  have hlist : 'n' :: Nat.toDigits 10 j = 'n' :: Nat.toDigits 10 k := by
    rw [← toList_nodeId, ← toList_nodeId, h]
  have hdigits : Nat.toDigits 10 j = Nat.toDigits 10 k := List.tail_eq_of_cons_eq hlist
  rw [← Nat.ofDigitChars_ten_toDigits (n := j), ← Nat.ofDigitChars_ten_toDigits (n := k), hdigits]

/-- The identifiers of the places after `low` up to `high`. -/
def Placed (low high : ℕ) (id : String) : Prop :=
  ∃ k, low < k ∧ k ≤ high ∧ id = nodeId k

namespace Placed

variable {low high low' high' : ℕ} {id : String}

/-- Whether a place lies in a range can be read off its identifier. -/
@[simp] lemma nodeId_iff {k : ℕ} : Placed low high (nodeId k) ↔ low < k ∧ k ≤ high := by
  constructor
  · rintro ⟨j, hlow, hhigh, h⟩
    obtain rfl := nodeId_inj.mp h
    exact ⟨hlow, hhigh⟩
  · rintro ⟨hlow, hhigh⟩
    exact ⟨k, hlow, hhigh, rfl⟩

/-- A range is part of every wider one. -/
lemma mono (h : Placed low high id) (hlow : low' ≤ low) (hhigh : high ≤ high') :
    Placed low' high' id := by
  obtain ⟨k, h₁, h₂, rfl⟩ := h
  exact ⟨k, by omega, by omega, rfl⟩

/-- Ranges that follow each other have no identifier in common. -/
lemma disjoint (h : Placed low high id) (h' : Placed low' high' id) (hle : high ≤ low') :
    False := by
  obtain ⟨k, h₁, h₂, rfl⟩ := h
  rw [nodeId_iff] at h'
  omega

end Placed

namespace Draft

variable {d : Draft} {g : Graph} {m : Mark} {id : String} {k : ℕ}

/-! ## Nodes -/

/-- A draft has as many nodes as marks. -/
@[simp] lemma length_nodes (d : Draft) : d.nodes.length = d.size := by
  simp [nodes, size]

/-- The node behind `i` others has the next place and shows the mark that was added there. -/
lemma getElem?_nodes (d : Draft) (i : ℕ) :
    d.nodes[i]? = (d.marks[i]?).map fun m => ⟨nodeId (i + 1), m.kind, m.label, (i + 1 : ℕ)⟩ := by
  simp only [nodes, List.getElem?_map, List.getElem?_zipIdx, Option.map_map]
  congr 1
  funext m
  simp [Nat.add_comm]

/-- A node of a draft is what stands in one of its places. -/
lemma mem_nodes_iff {n : Graph.Node} :
    n ∈ d.nodes ↔
      ∃ i m, d.marks[i]? = some m ∧ n = ⟨nodeId (i + 1), m.kind, m.label, (i + 1 : ℕ)⟩ := by
  rw [List.mem_iff_getElem?]
  simp only [getElem?_nodes, Option.map_eq_some_iff]
  exact ⟨fun ⟨i, m, hm, h⟩ => ⟨i, m, hm, h.symm⟩, fun ⟨i, m, hm, h⟩ => ⟨i, m, hm, h.symm⟩⟩

/-- The rank of an identifier is one less than its place. -/
lemma rank?_eq_some_iff {r : ℕ} : d.rank? id = some r ↔ r < d.size ∧ id = nodeId (r + 1) := by
  have hid : ∀ i (h : i < d.nodes.length), (d.nodes[i]).id = nodeId (i + 1) := by
    intro i h
    have hnode := d.getElem?_nodes i
    rw [List.getElem?_eq_getElem h] at hnode
    obtain ⟨m, -, hm⟩ := Option.map_eq_some_iff.mp hnode.symm
    rw [← hm]
  rw [rank?, List.findIdx?_eq_some_iff_getElem]
  constructor
  · rintro ⟨hr, h, -⟩
    rw [beq_iff_eq, hid r hr] at h
    exact ⟨by rwa [length_nodes] at hr, h.symm⟩
  · rintro ⟨hr, rfl⟩
    refine ⟨by rwa [length_nodes], by simp [hid], fun j hj => ?_⟩
    rw [hid, beq_iff_eq, nodeId_inj]
    omega

/-! ## Edges -/

/-- An edge between two nodes of the draft. -/
def Joins (d : Draft) (e : Graph.Edge) : Prop :=
  Placed 0 d.size e.source ∧ Placed 0 d.size e.target

/-- An identifier in the range of a draft has a rank. -/
lemma exists_rank?_iff : (∃ r, d.rank? id = some r) ↔ Placed 0 d.size id := by
  simp only [rank?_eq_some_iff]
  constructor
  · rintro ⟨r, hr, rfl⟩
    exact ⟨r + 1, by omega, by omega, rfl⟩
  · rintro ⟨k, h₁, h₂, rfl⟩
    obtain ⟨r, rfl⟩ : ∃ r, k = r + 1 := ⟨k - 1, by omega⟩
    exact ⟨r, by omega, rfl⟩

/-- An edge is ranked if and only if it joins two nodes; the ranked edge holds the edge itself. -/
lemma rankEdge_eq_ok_iff {e : Graph.Edge} {r : RankedEdge} :
    d.rankEdge e = .ok r ↔
      d.rank? e.source = some r.source ∧ d.rank? e.target = some r.target ∧ r.edge = e := by
  unfold rankEdge
  constructor
  · intro h
    split at h
    · next s t hs ht =>
      cases h
      exact ⟨hs, ht, rfl⟩
    · cases h
    · cases h
  · rintro ⟨hs, ht, rfl⟩
    rw [hs, ht]

/-- An edge is ranked if and only if it joins two nodes. -/
lemma exists_rankEdge_iff {e : Graph.Edge} : (∃ r, d.rankEdge e = .ok r) ↔ d.Joins e := by
  rw [Joins, ← exists_rank?_iff, ← exists_rank?_iff]
  constructor
  · rintro ⟨r, hr⟩
    obtain ⟨hsource, htarget, -⟩ := rankEdge_eq_ok_iff.mp hr
    exact ⟨⟨_, hsource⟩, ⟨_, htarget⟩⟩
  · rintro ⟨⟨s, hs⟩, ⟨t, ht⟩⟩
    exact ⟨⟨s, t, e⟩, rankEdge_eq_ok_iff.mpr ⟨hs, ht, rfl⟩⟩

/-- Edges that join nodes of a draft are all ranked. -/
lemma exists_mapM_rankEdge {edges : List Graph.Edge} (h : ∀ e ∈ edges, d.Joins e) :
    ∃ ranked, edges.mapM d.rankEdge = .ok ranked := by
  have hedge : ∀ e ∈ edges, ∃ r, d.rankEdge e = .ok r ∧ r.edge ∈ edges := by
    intro e he
    obtain ⟨r, hr⟩ := exists_rankEdge_iff.mpr (h e he)
    obtain ⟨-, -, rfl⟩ := rankEdge_eq_ok_iff.mp hr
    exact ⟨r, hr, he⟩
  obtain ⟨ranked, hranked, -⟩ := exists_mapM_eq_ok hedge
  exact ⟨ranked, hranked⟩

/-- Ranking keeps the edges, and ranked edges join nodes of the draft. -/
lemma map_edge_of_mapM {edges : List Graph.Edge} {ranked : List RankedEdge}
    (h : edges.mapM d.rankEdge = .ok ranked) :
    ranked.map RankedEdge.edge = edges ∧ ∀ e ∈ edges, d.Joins e := by
  induction mapM_eq_ok_iff.mp h with
  | nil => exact ⟨rfl, fun e he => absurd he List.not_mem_nil⟩
  | cons he hall ih =>
    obtain ⟨hsource, htarget, rfl⟩ := rankEdge_eq_ok_iff.mp he
    obtain ⟨hedges, hjoins⟩ := ih (mapM_eq_ok_iff.mpr hall)
    refine ⟨by rw [List.map_cons, hedges], List.forall_mem_cons.mpr ⟨?_, hjoins⟩⟩
    exact ⟨exists_rank?_iff.mp ⟨_, hsource⟩, exists_rank?_iff.mp ⟨_, htarget⟩⟩

/-! ## Freezing -/

/-- **Freezing** keeps the nodes, and sorts the edges by their ranks. -/
lemma freeze_eq_ok_iff : d.freeze = .ok g ↔ ∃ ranked, d.edges.mapM d.rankEdge = .ok ranked ∧
    g = ⟨d.nodes, (ranked.mergeSort RankedEdge.le).map RankedEdge.edge⟩ := by
  rw [freeze]
  cases d.edges.mapM d.rankEdge with
  | error fault => simp [bind, Except.bind]
  | ok ranked => simp [bind, Except.bind, pure, Except.pure, eq_comm]

/-- **A draft whose edges join its nodes freezes.** -/
lemma exists_freeze (h : ∀ e ∈ d.edges, d.Joins e) : ∃ g, d.freeze = .ok g := by
  obtain ⟨ranked, hranked⟩ := exists_mapM_rankEdge h
  exact ⟨_, freeze_eq_ok_iff.mpr ⟨ranked, hranked, rfl⟩⟩

/-- **What a frozen draft holds**: the nodes of the draft, and its edges in another order. -/
lemma freeze_eq_ok (h : d.freeze = .ok g) :
    g.nodes = d.nodes ∧ g.edges.Perm d.edges ∧ ∀ e ∈ d.edges, d.Joins e := by
  obtain ⟨ranked, hranked, rfl⟩ := freeze_eq_ok_iff.mp h
  obtain ⟨hedges, hjoins⟩ := map_edge_of_mapM hranked
  refine ⟨rfl, ?_, hjoins⟩
  calc ((ranked.mergeSort RankedEdge.le).map RankedEdge.edge).Perm
        (ranked.map RankedEdge.edge) := (List.mergeSort_perm ranked RankedEdge.le).map _
    _ = d.edges := hedges

/-- Identifiers have the same ranks in drafts with the same number of nodes. -/
lemma rank?_congr {d' : Draft} (h : d.size = d'.size) (id : String) : d.rank? id = d'.rank? id := by
  apply Option.ext
  intro r
  rw [rank?_eq_some_iff, rank?_eq_some_iff, h]

/-- Drafts with the same edges and the same number of nodes freeze to the same edges. -/
lemma edges_freeze_congr {d' : Draft} {g' : Graph} (hsize : d.size = d'.size)
    (hedges : d.edges = d'.edges) (h : d.freeze = .ok g) (h' : d'.freeze = .ok g') :
    g.edges = g'.edges := by
  have hrank : d.rankEdge = d'.rankEdge := by
    funext e
    rw [rankEdge, rankEdge, rank?_congr hsize, rank?_congr hsize]
  obtain ⟨ranked, hranked, rfl⟩ := freeze_eq_ok_iff.mp h
  obtain ⟨ranked', hranked', rfl⟩ := freeze_eq_ok_iff.mp h'
  rw [hedges, hrank, hranked'] at hranked
  cases hranked
  rfl

end Draft

/-! ## Marks -/

/-- What the node of an identifier shows. -/
def Graph.mark? (g : Graph) (id : String) : Option Mark :=
  (g.node? id).map fun n => ⟨n.kind, n.label⟩

namespace Draft

variable {d : Draft} {g : Graph}

/-- A frozen node shows the mark that was added in its place. -/
lemma mark?_freeze (h : d.freeze = .ok g) {i : ℕ} {m : Mark} (hm : d.marks[i]? = some m) :
    g.mark? (nodeId (i + 1)) = some m := by
  obtain ⟨hnodes, -, -⟩ := freeze_eq_ok h
  have hmem : (⟨nodeId (i + 1), m.kind, m.label, (i + 1 : ℕ)⟩ : Graph.Node) ∈ g.nodes := by
    rw [hnodes, mem_nodes_iff]
    exact ⟨i, m, hm, rfl⟩
  cases hfind : g.node? (nodeId (i + 1)) with
  | none =>
    rw [Graph.node?, List.find?_eq_none] at hfind
    exact absurd (by simp) (hfind _ (List.mem_reverse.mpr hmem))
  | some n =>
    have hid : n.id = nodeId (i + 1) := by
      have := List.find?_some hfind
      exact beq_iff_eq.mp this
    obtain ⟨j, m', hm', rfl⟩ : ∃ j m', d.marks[j]? = some m' ∧ n = _ := by
      rw [← mem_nodes_iff, ← hnodes]
      exact List.mem_reverse.mp (List.mem_of_find?_eq_some hfind)
    obtain rfl : j = i := by
      have := nodeId_inj.mp hid
      omega
    rw [hm, Option.some.injEq] at hm'
    subst hm'
    rw [Graph.mark?, hfind]
    rfl

end Draft

end Flowchart
