import Flowchart.Proofs.Flow.Balance

set_option relaxedAutoImplicit false
set_option autoImplicit false

/-!
# Branch discipline

The kind of a node in a chart tells which edges leave it. This is read off the balance of the chart:
the open ends that a node gives rise to are, one for one, those that its edges lead on from. The two
exceptions are the transition of a contract and the start of a scenario if nothing behind them ever
comes to an end.

## Main definitions

* `Flowchart.Graph.Disciplined`: the edges at the nodes of a flow graph, by their kinds.
* `Flowchart.Contract.transitionPlace`: the place of the transition.

## Main results

* `Flowchart.Artifact.disciplined`: the charts of contracts and scenarios are disciplined.
-/

namespace Flowchart

/-! ## Disciplined graphs -/

/-- The kinds of nodes that a single edge leaves. -/
def NodeKind.singleKinds : List NodeKind :=
  [.start, .action, .postcondition, .invariant, .unsupported]

/-- Whether a node guards what is behind it: one edge leaves it if it holds, and one leads to each
of its errors, of which there is at least one. No other edge leads to these. -/
def Graph.Guards (g : Graph) (n : Graph.Node) : Prop :=
  ∃ (next : String) (errors : List Graph.Node), errors ≠ [] ∧ errors.Nodup ∧
    (∀ m ∈ errors, m ∈ g.nodes ∧ m.kind = .error ∧
      g.edgesTo m.id = [⟨n.id, m.id, some "fail"⟩]) ∧
    (g.edgesFrom n.id).Perm
      (⟨n.id, next, some "pass"⟩ :: errors.map fun m => ⟨n.id, m.id, some "fail"⟩)

/-- **Branch discipline.** The edges that leave a node are determined by its kind. One node may be
an exception: nothing is said about it if its kind is one that a single edge leaves. -/
structure Graph.Disciplined (g : Graph) (exception : String) : Prop where
  /-- Two edges leave a decision. -/
  decision : ∀ n ∈ g.nodes, n.kind = .decision →
    ((g.edgesFrom n.id).map Edge.label).Perm [some "true", some "false"]
  /-- Two edges leave a loop. -/
  loop : ∀ n ∈ g.nodes, n.kind = .loop →
    ((g.edgesFrom n.id).map Edge.label).Perm [some "iterate", some "done"]
  /-- One edge leaves a precondition if it holds, and one leads to each of its errors. -/
  precondition : ∀ n ∈ g.nodes, n.kind = .precondition → g.Guards n
  /-- One edge leaves an action, a check behind it, or the start. -/
  single : ∀ n ∈ g.nodes, n.kind ∈ NodeKind.singleKinds → n.id ≠ exception →
    ∃ e, g.edgesFrom n.id = [e]
  /-- No edge leaves the finish or an error. -/
  terminal : ∀ n ∈ g.nodes, n.kind = .finish ∨ n.kind = .error → g.edgesFrom n.id = []
  /-- No edge leads to the start. -/
  start : ∀ n ∈ g.nodes, n.kind = .start → g.edgesTo n.id = []

/-! ## Edges by their origins -/

section Edges

variable {edges : List Graph.Edge} {id : String} {s : Multiset Entry}

/-- The edges from a node are those that lead on from open ends there. -/
lemma coe_map_origin_filter (edges : List Graph.Edge) (id : String) :
    (↑((edges.filter fun e => e.source == id).map Graph.Edge.origin) : Multiset Entry) =
      Multiset.filter (fun x => x.node = id) ↑(edges.map Graph.Edge.origin) := by
  rw [Multiset.filter_coe, List.filter_map]
  rfl

/-- As many edges lead on from open ends as there are open ends. -/
lemma Entry.Spent.length_eq (h : Entry.Spent s ↑(edges.map Graph.Edge.origin)) :
    edges.length = Multiset.card s := by
  have hcard := Multiset.card_eq_card_of_rel h
  simpa using hcard.symm

/-- Edges that lead on from open ends with labels have these labels. -/
lemma Entry.Spent.perm_labels {labels : List (Option String)}
    (h : Entry.Spent ↑(labels.map fun l => (⟨id, l⟩ : Entry)) ↑(edges.map Graph.Edge.origin))
    (hlabels : none ∉ labels) : (edges.map Graph.Edge.label).Perm labels := by
  have heq := h.eq_of_labelled (by
    intro x hx
    obtain ⟨l, hl, rfl⟩ := List.mem_map.mp hx
    rintro rfl
    exact hlabels hl)
  have hperm := (Multiset.coe_eq_coe.mp heq).symm.map Entry.label
  simpa [Graph.Edge.origin, Function.comp_def] using hperm

/-- The single edge that leads on from a single open end with a label. -/
lemma Entry.Spent.exists_eq_singleton {l : String}
    (h : Entry.Spent {⟨id, some l⟩} ↑(edges.map Graph.Edge.origin)) :
    ∃ target, edges = [⟨id, target, some l⟩] := by
  obtain ⟨⟨source, target, label⟩, rfl⟩ := List.length_eq_one_iff.mp h.length_eq
  have heq := h.eq_of_labelled (by simp)
  obtain ⟨rfl, rfl⟩ : id = source ∧ some l = label := by
    simpa [Graph.Edge.origin] using heq
  exact ⟨target, rfl⟩

/-- Of the two edges that lead on from two open ends, one has the label of the second. -/
lemma Entry.Spent.exists_perm_pair {l : String}
    (h : Entry.Spent ({⟨id, none⟩} + {⟨id, some l⟩}) ↑(edges.map Graph.Edge.origin)) :
    ∃ e e', edges.Perm [e, e'] ∧ e'.label = some l := by
  obtain ⟨e, e', rfl⟩ := List.length_eq_two.mp h.length_eq
  have hmem : (⟨id, some l⟩ : Entry) ∈ ({⟨id, none⟩} + {⟨id, some l⟩} : Multiset Entry) := by simp
  obtain ⟨x, hx, hlabel⟩ := Multiset.exists_mem_of_rel_of_mem h hmem
  obtain hlabel : x.label = some l := hlabel.2.resolve_left (by simp)
  simp only [Multiset.mem_coe, List.map_cons, List.map_nil, List.mem_cons, List.not_mem_nil,
    or_false] at hx
  rcases hx with rfl | rfl
  · exact ⟨e', e, List.Perm.swap _ _ _, hlabel⟩
  · exact ⟨e, e', .refl _, hlabel⟩

end Edges

/-! ## Charts -/

namespace Fragment

variable {f : Fragment} {size : ℕ} {entries : List Entry} {s : Multiset Entry}

/-- **A balanced part whose ends are linked to a node** uses up all open ends for edges. -/
lemma Balanced.spent_link (h : f.Balanced size entries s) (hreturns : f.returns = [])
    (target : String) : ∃ dues, List.Forall₂ (fun m labels => m.kind.Due labels) f.marks dues ∧
      Entry.Spent (↑entries + dueEnds size dues + s)
        ↑((f.edges ++ link f.continues target).map Graph.Edge.origin) := by
  obtain ⟨dues, hdues, hspent⟩ := h
  refine ⟨dues, hdues, ?_⟩
  rw [List.map_append, map_origin_link, ← Multiset.coe_add]
  rwa [uses, exits, hreturns, List.append_nil] at hspent

end Fragment

namespace Drawing

variable {finish exception : String} {part : Drawing} {g : Graph} {s : Multiset Entry}

/-- The edges that leave a node of a chart, in another order. -/
lemma edgesFrom_perm (hg : (chart finish part).freeze = .ok g) (id : String) :
    (g.edgesFrom id).Perm ((chart finish part).edges.filter fun e => e.source == id) :=
  (Draft.freeze_eq_ok hg).2.1.filter _

/-- **What leaves a node of a chart** is what a node of its kind gives rise to, and the surplus at
that node. -/
lemma exists_due (hbalanced : (part 2 beginning).Balanced 2 beginning s) (hsettled : part.Settled)
    (hg : (chart finish part).freeze = .ok g) {n : Graph.Node} (hn : n ∈ g.nodes) :
    ∃ labels, n.kind.Due labels ∧
      Entry.Spent (↑(labels.map fun l => (⟨n.id, l⟩ : Entry)) + s.filter fun x => x.node = n.id)
        ↑((g.edgesFrom n.id).map Graph.Edge.origin) := by
  obtain ⟨dues, hdues, hspent⟩ := hbalanced.spent_link (hsettled 2 beginning) (nodeId 2)
  rw [← edges_chart finish part] at hspent
  -- the start gives rise to the open end that leads into the part
  have hall : List.Forall₂ (fun m labels => m.kind.Due labels) (chart finish part).marks
      ([none] :: [] :: dues) := .cons rfl (.cons rfl hdues)
  have hends : dueEnds 0 ([none] :: [] :: dues) = ↑beginning + dueEnds 2 dues := by
    simp [dueEnds, beginning]
  rw [← hends] at hspent
  obtain ⟨i, m, hm, rfl⟩ := Draft.mem_nodes_iff.mp ((Draft.freeze_eq_ok hg).1 ▸ hn)
  obtain ⟨hi, rfl⟩ := List.getElem?_eq_some_iff.mp hm
  have hi' : i < ([none] :: [] :: dues : List (List (Option String))).length :=
    hall.length_eq ▸ hi
  refine ⟨_, hall.get hi hi', ?_⟩
  have hnode := hspent.filter (nodeId (i + 1))
  have hdue :
      ((dueEnds 0 ([none] :: [] :: dues)).filter fun x => x.node = nodeId (0 + i + 1)) = _ :=
    filter_dueEnds (List.getElem?_eq_getElem hi')
  rw [Nat.zero_add] at hdue
  rw [Multiset.filter_add, hdue, ← coe_map_origin_filter] at hnode
  rw [Multiset.coe_eq_coe.mpr ((edgesFrom_perm hg (nodeId (i + 1))).map Graph.Edge.origin)]
  exact hnode

/-- The edges of a chart lead to nodes of its part or to the finish. -/
lemma target_chart (hlocal : (part 2 beginning).Local 2 beginning)
    (hg : (chart finish part).freeze = .ok g) {e : Graph.Edge} (he : e ∈ g.edges) :
    Placed 2 (2 + (part 2 beginning).marks.length) e.target ∨ e.target = nodeId 2 := by
  have hmem := (Draft.freeze_eq_ok hg).2.1.subset he
  rw [edges_chart] at hmem
  rcases List.mem_append.mp hmem with hmem | hmem
  · exact .inl (hlocal.target e hmem)
  · exact .inr (mem_link hmem).2

/-- No edge leads to the start of a chart. -/
lemma edgesTo_start (hlocal : (part 2 beginning).Local 2 beginning)
    (hg : (chart finish part).freeze = .ok g) : g.edgesTo (nodeId 1) = [] := by
  rw [Graph.edgesTo, List.filter_eq_nil_iff]
  intro e he htarget
  rw [beq_iff_eq] at htarget
  rcases target_chart hlocal hg he with hplaced | hfinish
  · rw [htarget, Placed.nodeId_iff] at hplaced
    omega
  · have := nodeId_inj.mp (htarget.symm.trans hfinish)
    omega

/-- **A chart of a balanced part is disciplined**, if its preconditions are. -/
lemma disciplined_chart (hbalanced : (part 2 beginning).Balanced 2 beginning s)
    (hsettled : part.Settled) (hlocal : (part 2 beginning).Local 2 beginning)
    (hdraws : Draws (fun m => m.kind ≠ .start ∧ m.kind ≠ .finish) part)
    (hg : (chart finish part).freeze = .ok g) (hsurplus : ∀ x ∈ s, x.node = exception)
    (hexception : ∀ n ∈ g.nodes, n.id = exception → n.kind ∈ NodeKind.singleKinds)
    (hprecondition : ∀ n ∈ g.nodes, n.kind = .precondition → g.Guards n) :
    g.Disciplined exception := by
  have hdue : ∀ n ∈ g.nodes, n.id ≠ exception → ∃ labels, n.kind.Due labels ∧
      Entry.Spent ↑(labels.map fun l => (⟨n.id, l⟩ : Entry))
        ↑((g.edgesFrom n.id).map Graph.Edge.origin) := by
    intro n hn hne
    obtain ⟨labels, hlabels, hspent⟩ := exists_due hbalanced hsettled hg hn
    have hnone : (s.filter fun x => x.node = n.id) = 0 := by
      rw [Multiset.filter_eq_nil]
      intro x hx hid
      exact hne (hid.symm.trans (hsurplus x hx))
    rw [hnone, add_zero] at hspent
    exact ⟨labels, hlabels, hspent⟩
  have hregular : ∀ n ∈ g.nodes, n.kind ∉ NodeKind.singleKinds → n.id ≠ exception :=
    fun n hn hkind hid => hkind (hexception n hn hid)
  refine ⟨fun n hn hkind => ?_, fun n hn hkind => ?_, hprecondition, fun n hn hkind hne => ?_,
    fun n hn hkind => ?_, fun n hn hkind => ?_⟩
  · obtain ⟨labels, hlabels, hspent⟩ := hdue n hn (hregular n hn (by rw [hkind]; decide))
    rw [hkind] at hlabels
    obtain rfl : labels = _ := hlabels
    exact hspent.perm_labels (by simp)
  · obtain ⟨labels, hlabels, hspent⟩ := hdue n hn (hregular n hn (by rw [hkind]; decide))
    rw [hkind] at hlabels
    obtain rfl : labels = _ := hlabels
    exact hspent.perm_labels (by simp)
  · obtain ⟨labels, hlabels, hspent⟩ := hdue n hn hne
    obtain rfl : labels = [none] := by
      simp only [NodeKind.singleKinds, List.mem_cons, List.not_mem_nil, or_false] at hkind
      rcases hkind with h | h | h | h | h <;> rw [h] at hlabels <;> exact hlabels
    exact List.length_eq_one_iff.mp hspent.length_eq
  · have hne := hregular n hn (by rcases hkind with h | h <;> rw [h] <;> decide)
    obtain ⟨labels, hlabels, hspent⟩ := hdue n hn hne
    obtain rfl : labels = [] := by
      rcases hkind with h | h <;> rw [h] at hlabels <;> exact hlabels
    exact List.length_eq_zero_iff.mp hspent.length_eq
  · obtain ⟨rest, hnodes, hrest⟩ := exists_nodes_chart hdraws hg
    rw [hnodes, List.mem_cons, List.mem_cons] at hn
    rcases hn with rfl | rfl | hn
    · exact edgesTo_start hlocal hg
    · exact absurd hkind (by simp)
    · exact absurd hkind (hrest n hn).1

/-! ## Preconditions -/

section Guard

variable {first rest : Drawing} {place : ℕ} {tags : List String}

/-- The part that a precondition stands in. -/
def guarded (first : Drawing) (place : ℕ) (tags : List String) (rest : Drawing) : Drawing :=
  first.andThen ((Drawing.guard place tags).andThen rest)

/-- The number of nodes before a precondition in a chart. -/
def before (first : Drawing) : ℕ :=
  2 + (first 2 beginning).marks.length

/-- What is drawn behind a precondition in a chart. -/
def behind (first : Drawing) (place : ℕ) (tags : List String) (rest : Drawing) : Fragment :=
  rest (before first + ((errorMarks place tags).length + 1))
    [⟨nodeId (before first + 1), some "pass"⟩]

/-- The nodes of a part that a precondition stands in. -/
lemma marks_guarded : (guarded first place tags rest 2 beginning).marks =
    (first 2 beginning).marks ++
      (preconditionMark place :: errorMarks place tags ++
        (behind first place tags rest).marks) := by
  simp [guarded, Drawing.andThen, guard_eq, behind, before]

/-- The edges of a chart that a precondition stands in. -/
lemma edges_guarded (finish : String) : (chart finish (guarded first place tags rest)).edges =
    (first 2 beginning).edges ++
      link (first 2 beginning).continues (nodeId (before first + 1)) ++
      failureEdges (before first) (errorMarks place tags).length ++
      ((behind first place tags rest).edges ++
        link (behind first place tags rest).continues (nodeId 2)) := by
  rw [edges_chart]
  simp [guarded, Drawing.andThen, guard_eq, behind, before]

/-- The node of an error of a precondition in a chart. -/
def errorNode (first : Drawing) (place : ℕ) (tags : List String) (i : ℕ) : Graph.Node :=
  ⟨nodeId (before first + 1 + i + 1), .error, (errorLabels place tags)[i]?.getD "",
    (before first + 1 + i + 1 : ℕ)⟩

/-- A precondition has an error. -/
lemma errorMarks_ne_nil (place : ℕ) (tags : List String) : errorMarks place tags ≠ [] := by
  unfold errorMarks errorLabels
  split_ifs with hempty
  · simp
  · simpa using hempty

/-- The errors of a precondition are nodes of its chart. -/
lemma errorNode_mem (hg : (chart finish (guarded first place tags rest)).freeze = .ok g) {i : ℕ}
    (hi : i < (errorMarks place tags).length) : errorNode first place tags i ∈ g.nodes := by
  have hmarks : (chart finish (guarded first place tags rest)).marks =
      ([⟨.start, "start"⟩, ⟨.finish, finish⟩] ++ (first 2 beginning).marks ++
        [preconditionMark place]) ++
        (errorMarks place tags ++ (behind first place tags rest).marks) := by
    rw [marks_chart, marks_guarded]
    simp
  have hlength : ([⟨.start, "start"⟩, ⟨.finish, finish⟩] ++ (first 2 beginning).marks ++
      [preconditionMark place] : List Mark).length = before first + 1 := by
    simp [before]
    omega
  have hi' : i < (errorLabels place tags).length := by
    simpa [errorMarks] using hi
  rw [(Draft.freeze_eq_ok hg).1, Draft.mem_nodes_iff]
  refine ⟨before first + 1 + i, ⟨.error, (errorLabels place tags)[i]⟩, ?_, ?_⟩
  · rw [hmarks, List.getElem?_append_right (by omega), hlength, Nat.add_sub_cancel_left,
      List.getElem?_append_left hi, errorMarks, List.getElem?_map, List.getElem?_eq_getElem hi',
      Option.map_some]
  · rw [errorNode, List.getElem?_eq_getElem hi', Option.getD_some]

/-- The edges of a precondition to its errors, by their nodes. -/
lemma failureEdges_eq : failureEdges (before first) (errorMarks place tags).length =
    ((List.range (errorMarks place tags).length).map (errorNode first place tags)).map
      fun m => ⟨nodeId (before first + 1), m.id, some "fail"⟩ := by
  rw [List.map_map]
  rfl

/-- One edge leads from a precondition to each of its errors. -/
lemma filter_failureEdges (size : ℕ) {count i : ℕ} (hi : i < count) :
    (failureEdges size count).filter (fun e => e.target == nodeId (size + 1 + i + 1)) =
      [⟨nodeId (size + 1), nodeId (size + 1 + i + 1), some "fail"⟩] := by
  have hplace : ∀ j ∈ List.range count,
      (nodeId (size + 1 + j + 1) == nodeId (size + 1 + i + 1)) = (j == i) := by
    intro j _
    rw [Bool.eq_iff_iff, beq_iff_eq, beq_iff_eq, nodeId_inj]
    omega
  rw [failureEdges, List.filter_map]
  simp only [Function.comp_def]
  rw [List.filter_congr hplace, List.filter_beq,
    List.count_eq_one_of_mem List.nodup_range (List.mem_range.mpr hi)]
  rfl

variable {b c : Behavior} {i : ℕ}

/-- **No other edge leads to an error of a precondition.**

**Proof sketch.** The edges of the parts before and behind the precondition stay in these parts. -/
lemma edgesTo_errorNode (hfirst : first.Realizes b) (hrest : rest.Realizes c)
    (hg : (chart finish (guarded first place tags rest)).freeze = .ok g)
    (hi : i < (errorMarks place tags).length) :
    g.edgesTo (errorNode first place tags i).id =
      [⟨nodeId (before first + 1), (errorNode first place tags i).id, some "fail"⟩] := by
  have hfirstLocal : (first 2 beginning).Local 2 beginning := hfirst.within 2 beginning
  have hrestLocal : (behind first place tags rest).Local _ _ := hrest.within _ _
  set v := nodeId (before first + 1 + i + 1) with hv
  have hnone : ∀ edges : List Graph.Edge, (∀ e ∈ edges, e.target ≠ v) →
      edges.filter (fun e => e.target == v) = [] := by
    intro edges hedges
    rw [List.filter_eq_nil_iff]
    intro e he htarget
    exact hedges e he (beq_iff_eq.mp htarget)
  have hperm : (g.edgesTo v).Perm
      ((chart finish (guarded first place tags rest)).edges.filter fun e => e.target == v) :=
    (Draft.freeze_eq_ok hg).2.1.filter _
  rw [edges_guarded, List.filter_append, List.filter_append, List.filter_append,
    hnone (first 2 beginning).edges, hnone (link _ _), filter_failureEdges _ hi,
    hnone ((behind first place tags rest).edges ++ _)] at hperm
  · exact List.perm_singleton.mp hperm
  · intro e he htarget
    rcases List.mem_append.mp he with he | he
    · have hplaced := hrestLocal.target e he
      rw [htarget, hv, Placed.nodeId_iff] at hplaced
      omega
    · have hfinish := (mem_link he).2
      rw [htarget, hv, nodeId_inj] at hfinish
      unfold before at hfinish
      omega
  · intro e he htarget
    have hnode := (mem_link he).2
    rw [htarget, hv, nodeId_inj] at hnode
    omega
  · intro e he htarget
    have hplaced := hfirstLocal.target e he
    rw [htarget, hv, Placed.nodeId_iff] at hplaced
    unfold before at hplaced
    omega

/-- **What leaves a precondition**: an edge to what is behind it, and an edge to each error.

**Proof sketch.** No edge of the parts before starts at the precondition, and the part behind it
uses up the one open end there. -/
lemma edgesFrom_guarded (hfirst : first.Realizes b) (hsettled : rest.Settled)
    (hbalanced : (behind first place tags rest).Balanced
      (before first + ((errorMarks place tags).length + 1))
      [⟨nodeId (before first + 1), some "pass"⟩] s)
    (hsurplus : ∀ x ∈ s, x.node ≠ nodeId (before first + 1))
    (hg : (chart finish (guarded first place tags rest)).freeze = .ok g) :
    ∃ next, (g.edgesFrom (nodeId (before first + 1))).Perm
      (⟨nodeId (before first + 1), next, some "pass"⟩ ::
        failureEdges (before first) (errorMarks place tags).length) := by
  set u := nodeId (before first + 1) with hu
  have hfirstLocal : (first 2 beginning).Local 2 beginning := hfirst.within 2 beginning
  have hold : ∀ id, Placed 0 (before first) id → id ≠ u := by
    rintro id hid rfl
    rw [hu, Placed.nodeId_iff] at hid
    omega
  have hnone : ∀ edges : List Graph.Edge, (∀ e ∈ edges, Placed 0 (before first) e.source) →
      edges.filter (fun e => e.source == u) = [] := by
    intro edges hedges
    rw [List.filter_eq_nil_iff]
    intro e he hsource
    exact hold _ (hedges e he) (beq_iff_eq.mp hsource)
  have hfailures : (failureEdges (before first) (errorMarks place tags).length).filter
      (fun e => e.source == u) = failureEdges (before first) (errorMarks place tags).length := by
    rw [List.filter_eq_self]
    intro e he
    obtain ⟨i, -, rfl⟩ := List.mem_map.mp he
    exact beq_self_eq_true u
  -- the part behind the precondition uses up its open end
  obtain ⟨dues, -, hspent⟩ := hbalanced.spent_link (hsettled _ _) (nodeId 2)
  have hnode := hspent.filter u
  have hdues : ((dueEnds (before first + ((errorMarks place tags).length + 1)) dues).filter
      fun x => x.node = u) = 0 := by
    rw [Multiset.filter_eq_nil]
    intro x hx hid
    have hplaced := placed_of_mem_dueEnds hx
    rw [hid, hu, Placed.nodeId_iff] at hplaced
    omega
  have hs : (s.filter fun x => x.node = u) = 0 := by
    rw [Multiset.filter_eq_nil]
    exact hsurplus
  rw [Multiset.filter_add, Multiset.filter_add, hdues, hs, add_zero, add_zero,
    ← coe_map_origin_filter, Multiset.coe_singleton, Multiset.filter_singleton, if_pos rfl] at hnode
  obtain ⟨next, hnext⟩ := hnode.exists_eq_singleton
  refine ⟨next, (edgesFrom_perm hg u).trans ?_⟩
  rw [edges_guarded, List.filter_append, List.filter_append, List.filter_append,
    hnone (first 2 beginning).edges, hnone (link _ _), hfailures, hnext]
  · exact List.perm_append_singleton _ _
  · intro e he
    obtain ⟨⟨l, hl⟩, -⟩ := mem_link he
    exact hfirstLocal.placed_exits placed_beginning ⟨e.source, l⟩ (List.mem_append_left _ hl)
  · exact hfirstLocal.placed_source placed_beginning

/-- **A precondition guards what is behind it.** -/
lemma guards_guarded (hfirst : first.Realizes b) (hrest : rest.Realizes c)
    (hsettled : rest.Settled)
    (hbalanced : (behind first place tags rest).Balanced
      (before first + ((errorMarks place tags).length + 1))
      [⟨nodeId (before first + 1), some "pass"⟩] s)
    (hsurplus : ∀ x ∈ s, x.node ≠ nodeId (before first + 1))
    (hg : (chart finish (guarded first place tags rest)).freeze = .ok g) {n : Graph.Node}
    (hn : n.id = nodeId (before first + 1)) : g.Guards n := by
  obtain ⟨next, hperm⟩ := edgesFrom_guarded hfirst hsettled hbalanced hsurplus hg
  rw [failureEdges_eq] at hperm
  refine ⟨next, _, ?_, ?_, fun m hm => ?_, hn ▸ hperm⟩
  · simpa using errorMarks_ne_nil place tags
  · apply List.Nodup.map _ List.nodup_range
    intro i j hij
    have hid := nodeId_inj.mp (congrArg Graph.Node.id hij)
    omega
  · obtain ⟨i, hi, rfl⟩ := List.mem_map.mp hm
    rw [List.mem_range] at hi
    exact ⟨errorNode_mem hg hi, rfl, hn ▸ edgesTo_errorNode hfirst hrest hg hi⟩

end Guard

end Drawing

/-! ## Contracts -/

namespace Contract

/-- The place of the transition, behind the terminals and the preconditions. -/
def transitionPlace (c : Contract) : ℕ :=
  2 + (Drawing.guards c.guards 1 2 Drawing.beginning).marks.length + 1

/-- What is drawn of the function of a transition whose node is in a place. -/
def walked (c : Contract) (place : ℕ) : Fragment :=
  Drawing.transition c.transition place [⟨nodeId place, none⟩]

/-- The open end that the transition gets in addition, if its function never comes to an end. -/
def surplus (c : Contract) (place : ℕ) : Multiset Entry :=
  if (c.walked place).exits = [] then {⟨nodeId place, some "success"⟩} else 0

/-- The open end in addition is one of the transition. -/
lemma node_of_mem_surplus {c : Contract} {place : ℕ} {x : Entry} (h : x ∈ c.surplus place) :
    x.node = nodeId place := by
  unfold surplus at h
  split_ifs at h
  · rw [Multiset.mem_singleton.mp h]
  · exact absurd h (Multiset.notMem_zero x)

variable (root object : Tree)

/-- The function of a transition is balanced. -/
lemma balanced_walked (place : ℕ) :
    ((ofObject root object).walked place).Balanced place [⟨nodeId place, none⟩] 0 := by
  unfold walked
  rcases transition_cases root object with ⟨body, hvalue⟩ | hall
  · rw [hvalue]
    exact .returning body.caption (by simp)
  · exact hall Drawing.hereditary_balanced _ _

/-- **A contract is balanced** from its transition on, with what the transition gets in addition. -/
lemma balanced_late (size : ℕ) (entries : List Entry) :
    ((ofObject root object).late size entries).Balanced size entries
      ((ofObject root object).surplus (size + 1)) := by
  have hmark : transitionMark.kind.Due [none] := rfl
  have hclosing : (ofObject root object).closing.Balanced := by
    refine closing_of_serial _ Drawing.serial_balanced fun m hm => .mark ?_
    rcases kind_of_mem_checkMarks hm with hm | hm <;> rw [hm] <;> rfl
  have hsettle := Fragment.Balanced.settle (some "success")
    (balanced_walked root object (size + 1))
  have hlate := (Fragment.Balanced.mark hmark size entries).andThen
    (hsettle.andThen (hclosing _ _))
  rw [zero_add, zero_add, add_zero] at hlate
  exact hlate

/-- A contract is balanced from any precondition on. -/
lemma balanced_drawFrom (guards : List (List String)) (place size : ℕ) (entries : List Entry) :
    ((ofObject root object).drawFrom guards place size entries).Balanced size entries
      ((ofObject root object).surplus
        (size + (Drawing.guards guards place size entries).marks.length + 1)) := by
  have hguards : (Drawing.guards guards place).Balanced :=
    Drawing.serial_balanced.guards (fun tags _ place => .guard place tags) place
  have hall := (hguards size entries).andThen (balanced_late root object _ _)
  rwa [zero_add] at hall

variable {root object : Tree}

/-- A precondition of a contract stands behind some of its preconditions and in front of the others.
-/
lemma exists_precondition {guards : List (List String)} {place size i : ℕ} {entries : List Entry}
    {m : Mark} (hm : ((ofObject root object).drawFrom guards place size entries).marks[i]? = some m)
    (hkind : m.kind = .precondition) : ∃ before tags after, guards = before ++ tags :: after ∧
      i = (Drawing.guards before place size entries).marks.length := by
  induction guards generalizing place size i entries with
  | nil =>
    exact absurd hkind (draws_late root object _ _ m (List.mem_of_getElem? hm))
  | cons tags guards ih =>
    set count := (Drawing.errorMarks place tags).length with hcount
    have hmarks : ((ofObject root object).drawFrom (tags :: guards) place size entries).marks =
        (preconditionMark place :: Drawing.errorMarks place tags) ++
          ((ofObject root object).drawFrom guards (place + 1) (size + (count + 1))
            [⟨nodeId (size + 1), some "pass"⟩]).marks := by
      rw [drawFrom_cons, Drawing.andThen, Drawing.guard_eq, List.length_cons]
    rw [hmarks] at hm
    cases i with
    | zero => exact ⟨[], tags, guards, rfl, rfl⟩
    | succ i =>
      by_cases hi : i < count
      · rw [List.getElem?_append_left (by simpa using hi), List.getElem?_cons_succ] at hm
        obtain ⟨label, -, rfl⟩ := List.mem_map.mp (List.mem_of_getElem? hm)
        cases hkind
      · rw [List.getElem?_append_right (by simpa using hi), List.length_cons, ← hcount] at hm
        obtain ⟨before, tags', after, rfl, hlength⟩ := ih hm
        refine ⟨tags :: before, tags', after, rfl, ?_⟩
        have hguards : (Drawing.guards (tags :: before) place size entries).marks.length =
            count + 1 + (Drawing.guards before (place + 1) (size + (count + 1))
              [⟨nodeId (size + 1), some "pass"⟩]).marks.length := by
          have hcons : Drawing.guards (tags :: before) place =
              (Drawing.guard place tags).andThen (Drawing.guards before (place + 1)) := rfl
          rw [hcons, Drawing.andThen, Drawing.guard_eq, List.length_append, List.length_cons]
        rw [hguards, ← hlength]
        omega

/-- **The preconditions of a contract** guard what is behind them. -/
lemma guards_of_precondition {finish : String} {g : Graph}
    (hg : (Drawing.chart finish (Drawing.contract (ofObject root object))).freeze = .ok g)
    {n : Graph.Node} (hn : n ∈ g.nodes) (hkind : n.kind = .precondition) : g.Guards n := by
  set c := ofObject root object with hc
  rw [contract_eq_drawFrom] at hg
  obtain ⟨i, m, hm, rfl⟩ := Draft.mem_nodes_iff.mp ((Draft.freeze_eq_ok hg).1 ▸ hn)
  -- the terminals are no preconditions
  obtain ⟨j, rfl⟩ : ∃ j, i = j + 2 := by
    match i with
    | 0 => cases hm; cases hkind
    | 1 => cases hm; cases hkind
    | j + 2 => exact ⟨j, rfl⟩
  have hpart : (c.drawFrom c.guards 1 2 Drawing.beginning).marks[j]? = some m := hm
  obtain ⟨before, tags, after, hguards, hj⟩ := exists_precondition hpart hkind
  rw [hguards, drawFrom_append_cons] at hg
  obtain ⟨b, hb⟩ := exists_realizes root object after (1 + before.length + 1)
  refine Drawing.guards_guarded (Drawing.Realizes.guards before 1) hb (c.settled_drawFrom _ _)
    (balanced_drawFrom root object _ _ _ _) (fun x hx hid => ?_) hg ?_
  · have hplace := nodeId_inj.mp ((node_of_mem_surplus hx).symm.trans hid)
    omega
  · simp only [Drawing.before, nodeId_inj]
    omega

/-- The transition of a contract is where it should be. -/
lemma marks_transition (c : Contract) (finish : String) :
    (Drawing.chart finish (c.drawFrom c.guards 1)).marks[
      2 + (Drawing.guards c.guards 1 2 Drawing.beginning).marks.length]? = some transitionMark := by
  rw [Drawing.marks_chart, List.getElem?_append_right (by simp)]
  simp [drawFrom, late, Drawing.andThen, Drawing.mark]

/-- **The chart of a contract is disciplined** but for its transition. -/
lemma disciplined_draft {g : Graph} (hg : (ofObject root object).draft.freeze = .ok g) :
    g.Disciplined (nodeId (ofObject root object).transitionPlace) := by
  set c := ofObject root object with hc
  obtain ⟨b, hb⟩ := exists_realizes root object c.guards 1
  have hg' : (Drawing.chart "ok" (c.drawFrom c.guards 1)).freeze = .ok g :=
    c.contract_eq_drawFrom ▸ hg
  refine Drawing.disciplined_chart (balanced_drawFrom root object c.guards 1 2 Drawing.beginning)
    (c.settled_drawFrom _ _) (hb.within _ _) (draws_drawFrom root object _ _) hg'
    (fun x hx => node_of_mem_surplus hx) (fun n hn hid => ?_)
    fun n hn hkind => guards_of_precondition hg hn hkind
  -- the node in the place of the transition is an action
  obtain ⟨i, m, hm, rfl⟩ := Draft.mem_nodes_iff.mp ((Draft.freeze_eq_ok hg').1 ▸ hn)
  obtain rfl : i = 2 + (Drawing.guards c.guards 1 2 Drawing.beginning).marks.length :=
    Nat.succ_injective (nodeId_inj.mp hid)
  rw [marks_transition] at hm
  obtain rfl := Option.some.inj hm
  show NodeKind.action ∈ NodeKind.singleKinds
  decide

/-- **What leaves the transition of a contract.** -/
lemma edgesFrom_transition {g : Graph} (hg : (ofObject root object).draft.freeze = .ok g) :
    Entry.Spent ({⟨nodeId (ofObject root object).transitionPlace, none⟩} +
        (ofObject root object).surplus (ofObject root object).transitionPlace)
      ↑((g.edgesFrom (nodeId (ofObject root object).transitionPlace)).map Graph.Edge.origin) := by
  set c := ofObject root object with hc
  set t := nodeId c.transitionPlace with ht
  have hg' : (Drawing.chart "ok" (c.drawFrom c.guards 1)).freeze = .ok g :=
    c.contract_eq_drawFrom ▸ hg
  have hnode : (⟨t, .action, "transition", (c.transitionPlace : ℕ)⟩ : Graph.Node) ∈ g.nodes := by
    rw [(Draft.freeze_eq_ok hg').1, Draft.mem_nodes_iff]
    exact ⟨_, _, marks_transition c "ok", rfl⟩
  obtain ⟨labels, hlabels, hspent⟩ := Drawing.exists_due
    (balanced_drawFrom root object c.guards 1 2 Drawing.beginning) (c.settled_drawFrom _ _) hg'
    hnode
  obtain rfl : labels = [none] := hlabels
  have hsurplus : ((c.surplus c.transitionPlace).filter fun x => x.node = t) =
      c.surplus c.transitionPlace :=
    Multiset.filter_eq_self.mpr fun x hx => node_of_mem_surplus hx
  rwa [← hsurplus]

end Contract

/-! ## Scenarios -/

namespace Scenario

variable {names : Names} {function : Tree}

/-- The body of a scenario is balanced. -/
lemma balanced_body (names : Names) (function : Tree) :
    (ofFunction names function).body.Balanced :=
  hereditary_body Drawing.hereditary_balanced function

/-- **The chart of a scenario is disciplined** but for its start. -/
lemma disciplined_draft {g : Graph} (hg : (ofFunction names function).draft.freeze = .ok g) :
    g.Disciplined (nodeId 1) := by
  set s := ofFunction names function with hs
  obtain ⟨b, hb⟩ := exists_realizes names function
  have hdraws := draws_scenario names function
  have hbalanced := Fragment.Balanced.settle none (balanced_body names function 2 Drawing.beginning)
  rw [zero_add, ← drawing_eq] at hbalanced
  obtain ⟨rest, hnodes, hrest⟩ := Drawing.exists_nodes_chart hdraws hg
  refine Drawing.disciplined_chart hbalanced (settled_scenario s) (hb.within _ _)
    (hdraws.mono fun m hm => (Drawing.ne_of_mem_statementKinds hm).1) hg
    (fun x hx => ?_) (fun n hn hid => ?_) fun n hn hkind => ?_
  · split_ifs at hx
    · obtain ⟨y, hy, rfl⟩ := List.mem_map.mp (Multiset.mem_coe.mp hx)
      rw [List.mem_singleton.mp hy]
    · exact absurd hx (Multiset.notMem_zero x)
  · obtain ⟨i, m, hm, rfl⟩ := Draft.mem_nodes_iff.mp ((Draft.freeze_eq_ok hg).1 ▸ hn)
    obtain rfl : i = 0 := Nat.succ_injective (nodeId_inj.mp hid)
    obtain rfl := Option.some.inj hm
    decide
  · rw [hnodes, List.mem_cons, List.mem_cons] at hn
    rcases hn with rfl | rfl | hn
    · cases hkind
    · cases hkind
    · exact absurd hkind (Drawing.ne_of_mem_statementKinds (hrest n hn)).2

/-- If the body of a scenario has no open end, its start is left by an edge into the body and one to
the finish. -/
lemma edgesFrom_start_of_no_exits {g : Graph}
    (hg : (ofFunction names function).draft.freeze = .ok g)
    (hexits : ((ofFunction names function).body 2 Drawing.beginning).exits = []) :
    ∃ e, (g.edgesFrom (nodeId 1)).Perm [e, ⟨nodeId 1, nodeId 2, none⟩] := by
  set f := (ofFunction names function).body 2 Drawing.beginning with hf
  obtain ⟨dues, -, hspent⟩ := balanced_body names function 2 Drawing.beginning
  have hnode := hspent.filter (nodeId 1)
  have hdues : ((dueEnds 2 dues).filter fun x => x.node = nodeId 1) = 0 := by
    rw [Multiset.filter_eq_nil]
    intro x hx hid
    have hplaced := placed_of_mem_dueEnds hx
    rw [hid, Placed.nodeId_iff] at hplaced
    omega
  rw [← hf, Fragment.uses, hexits, Multiset.coe_nil, add_zero, add_zero, Multiset.filter_add, hdues,
    add_zero, ← coe_map_origin_filter, Drawing.beginning, Multiset.coe_singleton,
    Multiset.filter_singleton, if_pos rfl] at hnode
  obtain ⟨e, he⟩ := List.length_eq_one_iff.mp hnode.length_eq
  have hedges : (ofFunction names function).draft.edges =
      f.edges ++ [⟨nodeId 1, nodeId 2, none⟩] := by
    rw [draft, drawing_eq, Drawing.edges_chart, Drawing.settle]
    simp only [← hf, hexits, List.isEmpty_nil, if_true]
    rfl
  refine ⟨e, (Drawing.edgesFrom_perm hg (nodeId 1)).trans ?_⟩
  rw [← draft, hedges, List.filter_append, he]
  exact .refl _

/-- If the body of a scenario has an open end, a single edge leaves its start. -/
lemma edgesFrom_start_of_exits {g : Graph}
    (hg : (ofFunction names function).draft.freeze = .ok g)
    (hexits : ((ofFunction names function).body 2 Drawing.beginning).exits ≠ []) :
    ∃ e, g.edgesFrom (nodeId 1) = [e] := by
  have hbalanced := Fragment.Balanced.settle none (balanced_body names function 2 Drawing.beginning)
  rw [zero_add, ← drawing_eq, if_neg hexits] at hbalanced
  have hnode : (⟨nodeId 1, .start, "start", 1⟩ : Graph.Node) ∈ g.nodes := by
    rw [(Draft.freeze_eq_ok hg).1]
    exact List.mem_cons_self
  obtain ⟨labels, hlabels, hspent⟩ :=
    Drawing.exists_due hbalanced (settled_scenario _) hg hnode
  obtain rfl : labels = [none] := hlabels
  rw [Multiset.filter_zero, add_zero] at hspent
  exact List.length_eq_one_iff.mp hspent.length_eq

end Scenario

namespace Artifact

/-- **The charts of contracts and scenarios are disciplined.** For every object literal there is the
chart of a contract in which the edges that leave a node are determined by its kind. The exception
is the transition: it has a second edge for success if its function has no open end, neither one at
which it goes on nor one at which it returns, and a single edge if it has one. For every flow
function there is the chart of a scenario of the same discipline. There the exception is the start:
it has a second edge, straight to the finish, if the flow has no open end.

**Proof sketch.** A chart is balanced (`Drawing.hereditary_balanced`), so what leaves a node is what
nodes of its kind give rise to (`Drawing.exists_due`). -/
theorem disciplined :
    (∀ (root object : Tree) (id : String),
      ∃ a, ofContract id (.ofObject root object) = .ok a ∧
        let c := Contract.ofObject root object
        let t := nodeId c.transitionPlace
        a.graph.mark? t = some ⟨.action, "transition"⟩ ∧ a.graph.Disciplined t ∧
          ((c.walked c.transitionPlace).exits = [] →
            ∃ e e', (a.graph.edgesFrom t).Perm [e, e'] ∧ e'.label = some "success") ∧
          ((c.walked c.transitionPlace).exits ≠ [] → ∃ e, a.graph.edgesFrom t = [e])) ∧
      ∀ (names : Names) (function : Tree) (id : String),
        ∃ a, ofScenario id (.ofFunction names function) = .ok a ∧
          let s := Scenario.ofFunction names function
          a.graph.Disciplined (nodeId 1) ∧
            ((s.body 2 Drawing.beginning).exits = [] →
              ∃ e, (a.graph.edgesFrom (nodeId 1)).Perm [e, ⟨nodeId 1, nodeId 2, none⟩]) ∧
            ((s.body 2 Drawing.beginning).exits ≠ [] →
              ∃ e, a.graph.edgesFrom (nodeId 1) = [e]) := by
  refine ⟨fun root object id => ?_, fun names function id => ?_⟩
  · obtain ⟨b, hb⟩ := Contract.exists_realizes root object (Contract.ofObject root object).guards 1
    obtain ⟨g, hg⟩ := hb.exists_freeze_chart "ok"
    have hdraft : (Contract.ofObject root object).draft.freeze = .ok g := by
      rw [Contract.draft, Contract.contract_eq_drawFrom, hg]
    have hspent := Contract.edgesFrom_transition hdraft
    refine ⟨.ofGraph .contract id g, ?_, ?_, Contract.disciplined_draft hdraft, fun hexits => ?_,
      fun hexits => ?_⟩
    · rw [ofContract, hdraft]
      rfl
    · exact Draft.mark?_freeze hg (Contract.marks_transition _ _)
    · rw [Contract.surplus, if_pos hexits] at hspent
      exact hspent.exists_perm_pair
    · rw [Contract.surplus, if_neg hexits, add_zero] at hspent
      exact List.length_eq_one_iff.mp hspent.length_eq
  · obtain ⟨b, hb⟩ := Scenario.exists_realizes names function
    obtain ⟨g, hg⟩ := hb.exists_freeze_chart "end"
    refine ⟨.ofGraph .scenario id g, ?_, Scenario.disciplined_draft hg, fun hexits => ?_,
      fun hexits => ?_⟩
    · rw [ofScenario, Scenario.draft, hg]
      rfl
    · exact Scenario.edgesFrom_start_of_no_exits hg hexits
    · exact Scenario.edgesFrom_start_of_exits hg hexits

end Artifact

end Flowchart
