import Flowchart.Proofs.Flow.Balance
import Flowchart.Proofs.Flow.Renaming

set_option relaxedAutoImplicit false
set_option autoImplicit false

/-!
# Locality of statements

What drawing a statement does to the chart before it. Nodes and edges are added behind those that
are there, the edges lead to the new nodes only, and of the old nodes only those are left at which
the statement is entered. Each open end that leads into the statement is used once, as it is: an
edge leads on from it, or it stays open.

## Main definitions

* `Flowchart.Fragment.Accounts`: a fragment uses each open end that leads into it once.
* `Flowchart.Setting.Statements`: what is drawn of statements.

## Main results

* `Flowchart.Drawing.hereditary_accounts`: the parts that are drawn of statements account for the
  open ends that lead into them.
* `Flowchart.Draft.draw_statements`: what drawing statements does to a draft.

## Design

Balanced parts (`Flowchart.Fragment.Balanced`) use up the ends that their own nodes give rise to as
well, and those may get a label on their way. Here only the ends that come from before are counted,
and these are never changed.
-/

namespace Flowchart

/-! ## Accounting for open ends -/

namespace Fragment

variable {f g : Fragment} {size : ℕ} {entries : List Entry}

/-- **A fragment accounts for the open ends** that lead into it: what it uses are these, as they are
and as often as they are given, and ends at its own nodes. -/
def Accounts (f : Fragment) (size : ℕ) (entries : List Entry) : Prop :=
  ∃ own, f.uses = ↑entries + own ∧ ∀ x ∈ own, Placed size (size + f.marks.length) x.node

namespace Accounts

/-- The empty part hands on the open ends. -/
lemma skip (size : ℕ) (entries : List Entry) :
    (Drawing.skip size entries).Accounts size entries :=
  ⟨0, by simp [uses, exits, Drawing.skip], by simp⟩

/-- A node is entered from all open ends. -/
lemma mark (m : Mark) (size : ℕ) (entries : List Entry) :
    (Drawing.mark m size entries).Accounts size entries := by
  refine ⟨{⟨nodeId (size + 1), none⟩}, by simp [uses, exits, Drawing.mark], fun x hx => ?_⟩
  obtain rfl := Multiset.mem_singleton.mp hx
  simp [Drawing.mark]

/-- A node behind which control ends is entered from all open ends. -/
lemma stop (m : Mark) (size : ℕ) (entries : List Entry) :
    (Drawing.stop m size entries).Accounts size entries :=
  ⟨0, by simp [uses, exits, Drawing.stop, Drawing.mark], by simp⟩

/-- **Two parts in a row** account for the open ends that lead into the first: it leaves some of
them open, and for these the second accounts. -/
lemma andThen {first second : Drawing} (hfirst : (first size entries).Accounts size entries)
    (hsecond : (second (size + (first size entries).marks.length)
      (first size entries).continues).Accounts (size + (first size entries).marks.length)
      (first size entries).continues) :
    (first.andThen second size entries).Accounts size entries := by
  set f := first size entries with hf
  set g := second (size + f.marks.length) f.continues with hg
  have hmarks : (first.andThen second size entries).marks.length =
      f.marks.length + g.marks.length := by
    simp only [Drawing.andThen, List.length_append, ← hf, ← hg]
  obtain ⟨own, huses, hown⟩ := hfirst
  obtain ⟨own', huses', hown'⟩ := hsecond
  refine ⟨own + own', ?_, fun x hx => ?_⟩
  · calc (first.andThen second size entries).uses
        = ↑(f.edges.map Graph.Edge.origin) + ↑f.returns + g.uses := by
          simp only [uses, exits, Drawing.andThen, ← hf, ← hg, List.map_append,
            ← Multiset.coe_add]
          abel
      _ = f.uses + own' := by
          rw [huses', uses, exits, ← Multiset.coe_add]
          abel
      _ = ↑entries + (own + own') := by rw [huses, add_assoc]
  · rw [hmarks, ← Nat.add_assoc]
    rcases Multiset.mem_add.mp hx with hx | hx
    · exact (hown x hx).mono le_rfl (by omega)
    · exact (hown' x hx).mono (by omega) le_rfl

/-- A fragment with the same nodes and edges accounts for the same if it has the same open ends. -/
lemma congr (hf : f.Accounts size entries) (hmarks : g.marks = f.marks) (hedges : g.edges = f.edges)
    (hexits : g.exits.Perm f.exits) : g.Accounts size entries := by
  obtain ⟨own, huses, hown⟩ := hf
  refine ⟨own, ?_, by rwa [hmarks]⟩
  rwa [uses, hedges, Multiset.coe_eq_coe.mpr hexits]

/-- A part that is entered from one node only uses ends at this node and at its own ones. -/
lemma placed_of_mem_uses {l : Option String}
    (hf : f.Accounts (size + 1) [⟨nodeId (size + 1), l⟩]) {x : Entry} (hx : x ∈ f.uses) :
    Placed size (size + 1 + f.marks.length) x.node := by
  obtain ⟨own, huses, hown⟩ := hf
  rw [huses] at hx
  rcases Multiset.mem_add.mp hx with hx | hx
  · obtain rfl := List.mem_singleton.mp (Multiset.mem_coe.mp hx)
    rw [Placed.nodeId_iff]
    omega
  · exact (hown x hx).mono (by omega) le_rfl

/-- **A choice** accounts for the open ends that lead into it: its node is entered from all of them,
and its two parts only use what comes from this node. -/
lemma branch (label : String) (hf : f.Accounts (size + 1) [⟨nodeId (size + 1), some "true"⟩])
    (hg : g.Accounts (size + 1 + f.marks.length) [⟨nodeId (size + 1), some "false"⟩]) :
    (⟨⟨.decision, label⟩ :: (f.marks ++ g.marks),
      link entries (nodeId (size + 1)) ++ f.edges ++ g.edges, f.continues ++ g.continues,
      f.returns ++ g.returns⟩ : Fragment).Accounts size entries := by
  obtain ⟨own, huses, hown⟩ := hg
  refine ⟨f.uses + g.uses, ?_, fun x hx => ?_⟩
  · simp only [uses, exits, List.map_append, map_origin_link, ← Multiset.coe_add]
    abel
  · rw [List.length_cons, List.length_append]
    rcases Multiset.mem_add.mp hx with hx | hx
    · exact (hf.placed_of_mem_uses hx).mono le_rfl (by omega)
    · rw [huses] at hx
      rcases Multiset.mem_add.mp hx with hx | hx
      · obtain rfl := List.mem_singleton.mp (Multiset.mem_coe.mp hx)
        rw [Placed.nodeId_iff]
        omega
      · exact (hown x hx).mono (by omega) (by omega)

/-- **A loop** accounts for the open ends that lead into it: its node is entered from all of them,
and what its body uses comes from this node, as do the ways back. -/
lemma loop (label : String) (hf : f.Accounts (size + 1) [⟨nodeId (size + 1), some "iterate"⟩]) :
    (⟨⟨.loop, label⟩ :: f.marks, link entries (nodeId (size + 1)) ++ f.edges ++
      Drawing.backEdges f.continues (nodeId (size + 1)), [⟨nodeId (size + 1), some "done"⟩],
      f.returns⟩ : Fragment).Accounts size entries := by
  set id := nodeId (size + 1) with hid
  refine ⟨↑(f.edges.map Graph.Edge.origin) +
    ↑((Drawing.backEdges f.continues id).map Graph.Edge.origin) + {⟨id, some "done"⟩} +
    ↑f.returns, ?_, fun x hx => ?_⟩
  · simp only [uses, exits, List.map_append, map_origin_link, ← Multiset.coe_add,
      ← Multiset.coe_singleton]
    abel
  · rw [List.length_cons, Nat.add_comm f.marks.length, ← Nat.add_assoc]
    simp only [Multiset.mem_add, Multiset.mem_coe, Multiset.mem_singleton] at hx
    rcases hx with ((hx | hx) | rfl) | hx
    · exact hf.placed_of_mem_uses (by simp [uses, hx])
    · -- a way back leads on from an end of the body, maybe with another label
      obtain ⟨e, he, rfl⟩ := List.mem_map.mp hx
      obtain ⟨y, hy, rfl⟩ := List.mem_map.mp he
      exact hf.placed_of_mem_uses (x := y) (by simp [uses, exits, hy])
    · rw [hid, Placed.nodeId_iff]
      omega
    · exact hf.placed_of_mem_uses (by simp [uses, exits, hx])

/-- What a fragment uses comes from its own nodes, or it is one of the open ends that lead into it.
-/
lemma placed_or_mem (hf : f.Accounts size entries) {x : Entry} (hx : x ∈ f.uses) :
    Placed size (size + f.marks.length) x.node ∨ x ∈ entries := by
  obtain ⟨own, huses, hown⟩ := hf
  rw [huses] at hx
  rcases Multiset.mem_add.mp hx with hx | hx
  · exact .inr (Multiset.mem_coe.mp hx)
  · exact .inl (hown x hx)

/-- **What a fragment uses at old nodes** are the open ends that lead into it. -/
lemma filter_uses (hf : f.Accounts size entries) {p : String → Prop} [DecidablePred p]
    (hentries : ∀ x ∈ entries, p x.node)
    (hnew : ∀ id, Placed size (size + f.marks.length) id → ¬ p id) :
    f.uses.filter (fun x => p x.node) = ↑entries := by
  obtain ⟨own, huses, hown⟩ := hf
  have hold : (↑entries : Multiset Entry).filter (fun x => p x.node) = ↑entries :=
    Multiset.filter_eq_self.mpr hentries
  have hrest : own.filter (fun x => p x.node) = 0 :=
    Multiset.filter_eq_nil.mpr fun x hx => hnew _ (hown x hx)
  rw [huses, Multiset.filter_add, hold, hrest, add_zero]

end Accounts

end Fragment

namespace Drawing

/-- A part that accounts for the open ends that lead into it, wherever it is drawn. -/
def Accounts (part : Drawing) : Prop :=
  ∀ size entries, (part size entries).Accounts size entries

/-- **The parts that are drawn of statements account for the open ends** that lead into them. -/
lemma hereditary_accounts {s : Setting} : Hereditary s Accounts where
  skip := .skip
  mark _ := .mark _
  stop _ := .stop _
  andThen hfirst hsecond _ := fun size entries => (hfirst size entries).andThen (hsecond _ _)
  whenLive hpart := by
    intro size entries
    unfold whenLive
    split_ifs
    · exact .skip size entries
    · exact hpart size entries
  leaving hpart := fun size entries => (hpart size entries).congr rfl rfl (.refl _)
  branch t htrue hfalse := fun size entries => .branch t.branchLabel (htrue _ _) (hfalse _ _)
  loop t form hbody := fun size entries => .loop (t.loopLabel form) (hbody _ _)

end Drawing

/-! ## Drawing statements -/

/-- What is drawn of statements where they run: of one statement, or of statements in a row. -/
inductive Setting.Statements (s : Setting) : Drawing → Prop where
  | one (t : Tree) : Statements s (Stmt.ofTree s.dialect t).draw
  | row (ts : List Tree) : Statements s (Stmt.drawAll (ts.map (Stmt.ofTree s.dialect)))

/-- Hereditary properties hold of what is drawn of statements. -/
lemma Drawing.Hereditary.statements {s : Setting} {P : Drawing → Prop} (h : Hereditary s P)
    {part : Drawing} (hpart : s.Statements part) : P part := by
  cases hpart with
  | one t => exact h.ofTree t
  | row ts =>
    refine h.drawAll fun stmt hstmt => ?_
    obtain ⟨t, -, rfl⟩ := List.mem_map.mp hstmt
    exact h.ofTree t

namespace Draft

variable {s : Setting} {part : Drawing}

/-- The nodes of a draft are those in its places. -/
lemma mem_map_id_nodes_iff (d : Draft) {id : String} :
    id ∈ d.nodes.map Graph.Node.id ↔ Placed 0 d.size id := by
  rw [nodes_eq, mem_map_id_nodesBehind_iff, Nat.zero_add, size]

/-- A draft keeps its nodes when something is drawn behind it. -/
lemma nodes_draw (d : Draft) (part : Drawing) (entries : List Entry) :
    (d.draw part entries).1.nodes =
      d.nodes ++ nodesBehind d.size (part d.size entries).marks := by
  rw [nodes_eq, nodes_eq, draw, extend, nodesBehind_append, Nat.zero_add, size]

/-- **What drawing statements does to a draft.** For all statements of contracts and scenarios, all
drafts and all open ends at nodes of the draft: nodes and edges are added behind those that are
there. Each new edge leads to a new node, and from a new node or from one at which there was an open
end. What stays open is at a new node, or was open before. Each open end that was there before is
used once, with its label and as often as it was given: a new edge leads on from it, or it stays
open, at the end of the statements or where they return. Behind another draft, and from renamed open
ends, the same is drawn up to the renaming, with the new nodes shifted to the places behind that
draft.

**Proof sketch.** The three parts are properties that all ways to draw statements preserve:
statements realize behaviors, so they stay local (`Drawing.hereditary_realizes`), they account for
the open ends that lead into them (`Drawing.hereditary_accounts`), and they are natural
(`Drawing.hereditary_natural`). -/
theorem draw_statements (hpart : s.Statements part) (d : Draft) {entries : List Entry}
    (hentries : ∀ x ∈ entries, x.node ∈ d.nodes.map Graph.Node.id) :
    let old := d.nodes.map Graph.Node.id
    let f := (d.draw part entries).2
    let added := nodesBehind d.size f.marks
    let new := added.map Graph.Node.id
    (d.draw part entries).1.nodes = d.nodes ++ added ∧
      (d.draw part entries).1.edges = d.edges ++ f.edges ∧
      (∀ e ∈ f.edges, e.target ∈ new ∧ (e.source ∈ new ∨ e.source ∈ entries.map Entry.node)) ∧
      (∀ x ∈ f.continues ++ f.returns, x.node ∈ new ∨ x ∈ entries) ∧
      ((f.edges.map Graph.Edge.origin ++ f.continues ++ f.returns).filter
        fun x => x.node ∈ old).Perm entries ∧
      ∀ (d' : Draft) (ρ : String → String),
        let σ := shiftBehind ρ d.size d'.size f.marks.length
        let drawn := d'.draw part (entries.map (.rename ρ))
        drawn.1.nodes = d'.nodes ++ added.map (fun n =>
            ⟨σ n.id, n.kind, n.label, n.order + (d'.size - d.size)⟩) ∧
          drawn.1.edges = d'.edges ++ f.edges.map (.rename σ) ∧
          drawn.2 = f.rename σ := by
  intro old f added new
  obtain ⟨b, hrealizes⟩ := Drawing.hereditary_realizes.statements hpart
  have haccounts : f.Accounts d.size entries :=
    Drawing.hereditary_accounts.statements hpart d.size entries
  have hlocal : f.Local d.size entries := hrealizes.within d.size entries
  have hnatural := Drawing.hereditary_natural.statements hpart
  have hplaced : ∀ x ∈ entries, Placed 0 d.size x.node :=
    fun x hx => d.mem_map_id_nodes_iff.mp (hentries x hx)
  have hnew : ∀ id, id ∈ new ↔ Placed d.size (d.size + f.marks.length) id :=
    fun id => mem_map_id_nodesBehind_iff
  refine ⟨d.nodes_draw part entries, rfl, fun e he => ⟨?_, ?_⟩, fun x hx => ?_, ?_, ?_⟩
  · exact (hnew _).mpr (hlocal.target e he)
  · rcases hlocal.source e he with ⟨l, hl⟩ | hsource
    · exact .inr (List.mem_map.mpr ⟨_, hl, rfl⟩)
    · exact .inl ((hnew _).mpr hsource)
  · have huses : x ∈ f.uses := Multiset.mem_add.mpr (.inr (Multiset.mem_coe.mpr hx))
    exact (haccounts.placed_or_mem huses).imp_left (hnew _).mpr
  · have hfilter := haccounts.filter_uses (p := (· ∈ old)) hentries fun id hid hold =>
      (d.mem_map_id_nodes_iff.mp hold).disjoint hid le_rfl
    rw [Fragment.uses, Fragment.exits, Multiset.coe_add, ← List.append_assoc] at hfilter
    exact Multiset.coe_eq_coe.mp hfilter
  · intro d' ρ σ drawn
    have hdrawn : drawn.2 = f.rename σ := hnatural.shiftBehind_eq ρ d'.size hplaced
    refine ⟨?_, ?_, hdrawn⟩
    · have hmarks : (part d'.size (entries.map (.rename ρ))).marks = f.marks :=
        (congrArg Fragment.marks hdrawn :)
      rw [nodes_draw, hmarks, map_nodesBehind_shift (shifts_shiftBehind ρ _ _ _)]
    · exact congrArg (d'.edges ++ ·) (congrArg Fragment.edges hdrawn)

/-- **A loop that is entered three times**, twice from the same end. A scenario returns from it by
the label of the loop, and the three ends are those that its edges lead on from. -/
theorem draw_statements_of_loop :
    let d : Draft := ⟨[⟨.start, "start"⟩, ⟨.finish, "end"⟩], []⟩
    let entries : List Entry := [⟨nodeId 1, none⟩, ⟨nodeId 2, some "x"⟩, ⟨nodeId 1, none⟩]
    let f := (d.draw (Stmt.ofTree (.scenario []) Scenario.returningLoop).draw entries).2
    (∀ x ∈ entries, x.node ∈ d.nodes.map Graph.Node.id) ∧
      f.returns = [⟨nodeId 3, some "iterate"⟩] ∧
      ((f.edges.map Graph.Edge.origin ++ f.continues ++ f.returns).filter
        fun x => x.node ∈ d.nodes.map Graph.Node.id).Perm entries := by
  intro d entries f
  have hentries : ∀ x ∈ entries, x.node ∈ d.nodes.map Graph.Node.id := by decide
  have hpart : (Setting.scenario []).Statements
      (Stmt.ofTree (.scenario []) Scenario.returningLoop).draw := .one Scenario.returningLoop
  obtain ⟨-, -, -, -, hused, -⟩ := draw_statements hpart d hentries
  exact ⟨hentries, rfl, hused⟩

end Draft

end Flowchart
