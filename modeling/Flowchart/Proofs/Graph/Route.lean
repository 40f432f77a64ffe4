import Flowchart.Proofs.Graph.Walk

set_option relaxedAutoImplicit false
set_option autoImplicit false

/-!
# Routes

The paths of a flow chart by the edges that they take. A walk tells what the nodes on it show; a
route tells which nodes these are.

## Main definitions

* `Flowchart.Route`: a path along given edges, with the edges that it takes.
* `Flowchart.naming`: every node shows its own identifier.
* `Flowchart.Graph.Edge.Ahead`: the edges that lead to nodes of later places.

## Main results

* `Flowchart.Route.exists_walk`: if every node shows its own identifier, the words of routes spell
  out their nodes.
* `Flowchart.Route.nil_of_ahead`: no closed route goes ahead all the way.
-/

namespace Flowchart

/-- A path along some edges from node to node with the edges that it takes. -/
inductive Route (edges : List Graph.Edge) : String → List Graph.Edge → String → Prop where
  | nil (u : String) : Route edges u [] u
  | cons {u v : String} {e : Graph.Edge} {es : List Graph.Edge} :
    e ∈ edges → e.source = u → Route edges e.target es v → Route edges u (e :: es) v

/-- Every node shows its own identifier. -/
def naming (id : String) : Option Mark :=
  some ⟨.action, id⟩

/-- The nodes that a word spells out if every node shows its own identifier. -/
def Word.nodes (w : Word) : List String :=
  w.map fun letter => letter.2.label

/-- The nodes of two words are those of both. -/
lemma Word.nodes_append (v w : Word) : nodes (v ++ w) = nodes v ++ nodes w :=
  List.map_append

/-- The nodes that a walk spells out are targets of edges. -/
lemma Walk.mem_nodes {edges : List Graph.Edge} {u v : String} {w : Word}
    (h : Walk naming edges u w v) : ∀ id ∈ w.nodes, ∃ e ∈ edges, e.target = id := by
  induction h with
  | nil => exact fun id hid => absurd hid List.not_mem_nil
  | cons he _ hm _ ih =>
    obtain rfl := Option.some.inj hm
    exact List.forall_mem_cons.mpr ⟨⟨_, he, rfl⟩, ih⟩

/-- Whether an edge leads to a node of a later place. -/
def Graph.Edge.Ahead (e : Graph.Edge) : Prop :=
  ∃ j k, j < k ∧ e.source = nodeId j ∧ e.target = nodeId k

namespace Route

variable {edges es : List Graph.Edge} {u v : String}

/-- **The words of routes** spell out the nodes behind their edges, if every node shows its own
identifier. -/
lemma exists_walk (h : Route edges u es v) :
    ∃ w, Walk naming edges u w v ∧ w.nodes = es.map Graph.Edge.target := by
  induction h with
  | nil u => exact ⟨[], .nil u, rfl⟩
  | @cons u v e es he hsource _ ih =>
    obtain ⟨w, hw, hnodes⟩ := ih
    exact ⟨(e.label, ⟨.action, e.target⟩) :: w, .cons he hsource rfl hw,
      congrArg (e.target :: ·) hnodes⟩

/-- A route takes edges that there are. -/
lemma mem_edges (h : Route edges u es v) : ∀ e ∈ es, e ∈ edges := by
  induction h with
  | nil => exact fun e he => absurd he List.not_mem_nil
  | cons he _ _ ih => exact List.forall_mem_cons.mpr ⟨he, ih⟩

/-- A route without edges stays where it is. -/
lemma eq_of_nil (h : Route edges u [] v) : u = v := by
  cases h
  rfl

/-- **A route goes on** behind each of its edges, or it ends there. -/
lemma goes_on (h : Route edges u es v) :
    ∀ e ∈ es, e.target = v ∨ ∃ e' ∈ es, e'.source = e.target := by
  induction h with
  | nil => exact fun e he => absurd he List.not_mem_nil
  | @cons u v e es _ _ htail ih =>
    refine List.forall_mem_cons.mpr ⟨?_, fun e' he' => ?_⟩
    · cases htail with
      | nil => exact .inl rfl
      | cons _ hsource _ => exact .inr ⟨_, List.mem_cons_of_mem _ List.mem_cons_self, hsource⟩
    · exact (ih e' he').imp_right fun ⟨e'', he'', hsource⟩ =>
        ⟨e'', List.mem_cons_of_mem _ he'', hsource⟩

/-- A closed route goes on behind each of its edges. -/
lemma goes_on_of_closed (h : Route edges u es u) : ∀ e ∈ es, ∃ e' ∈ es, e'.source = e.target := by
  intro e he
  rcases h.goes_on e he with htarget | hnext
  · cases h with
    | nil => cases he
    | cons _ hsource _ => exact ⟨_, List.mem_cons_self, hsource.trans htarget.symm⟩
  · exact hnext

/-- A route that goes ahead all the way leads to a later place. -/
lemma ahead (h : Route edges u es v) (hne : es ≠ []) (hahead : ∀ e ∈ es, e.Ahead) :
    ∃ j k, j < k ∧ u = nodeId j ∧ v = nodeId k := by
  induction h with
  | nil => exact absurd rfl hne
  | @cons u v e es _ hsource htail ih =>
    obtain ⟨⟨j, k, hlt, hj, hk⟩, hrest⟩ := List.forall_mem_cons.mp hahead
    by_cases hnil : es = []
    · subst hnil
      exact ⟨j, k, hlt, hsource.symm.trans hj, htail.eq_of_nil.symm.trans hk⟩
    · obtain ⟨k', last, hlt', hk', hlast⟩ := ih hnil hrest
      obtain rfl := nodeId_inj.mp (hk.symm.trans hk')
      exact ⟨j, last, by omega, hsource.symm.trans hj, hlast⟩

/-- **No closed route goes ahead all the way**, but for the one without edges. -/
lemma nil_of_ahead (h : Route edges u es u) (hahead : ∀ e ∈ es, e.Ahead) : es = [] := by
  by_contra hne
  obtain ⟨j, k, hlt, hj, hk⟩ := h.ahead hne hahead
  have := nodeId_inj.mp (hj.symm.trans hk)
  omega

end Route

end Flowchart
