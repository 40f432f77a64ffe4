import Flowchart.Proofs.Flow.Construction
import Mathlib.Algebra.Order.Group.Multiset
import Mathlib.Tactic.Abel

set_option relaxedAutoImplicit false
set_option autoImplicit false

/-!
# The balance of open ends

Open ends are handed from part to part, and an edge is drawn for each of them in the end. No way to
draw loses an open end or uses one twice: the ends that lead into a part and those that its nodes
give rise to are, one for one, those that its edges lead on from and those that it leaves open. So
the edges that leave a node can be read off its kind.

## Main definitions

* `Flowchart.NodeKind.Due`: the labels of the open ends that a node of a kind gives rise to.
* `Flowchart.Entry.Spent`: open ends that are used up, one for one.
* `Flowchart.Fragment.Balanced`: a part uses up each open end once.

## Main results

* `Flowchart.Drawing.hereditary_balanced`: the parts that are drawn of statements are balanced.
* `Flowchart.Fragment.Balanced.settle`: a part without an end takes what led into it once more.

## Design

An open end without a label may get one on its way, for the next round of a loop or as a returned
value. One with a label keeps it.
-/

namespace Flowchart

/-! ## Open ends that are used up -/

/-- The open end that an edge leads on from. -/
def Graph.Edge.origin (e : Graph.Edge) : Entry :=
  ⟨e.source, e.label⟩

namespace Entry

/-- What may become of an open end on its way: if it has no label it may get one. -/
def Becomes (x y : Entry) : Prop :=
  y.node = x.node ∧ (x.label = none ∨ y.label = x.label)

/-- An open end may stay what it is. -/
lemma Becomes.refl (x : Entry) : x.Becomes x :=
  ⟨rfl, .inr rfl⟩

instance : IsTrans Entry Becomes where
  trans := by
    intro x y z hxy hyz
    refine ⟨hyz.1.trans hxy.1, ?_⟩
    rcases hxy.2 with hx | hx
    · exact .inl hx
    · exact hyz.2.imp (fun hy => hx ▸ hy) fun hy => hy.trans hx

/-- Open ends that are used up, one for one, by others that they become. -/
def Spent (supply use : Multiset Entry) : Prop :=
  Multiset.Rel Becomes supply use

namespace Spent

variable {s t u v : Multiset Entry}

/-- Open ends may stay what they are. -/
lemma refl (s : Multiset Entry) : Spent s s :=
  Multiset.rel_refl_of_refl_on fun x _ => .refl x

/-- Open ends may be passed on. -/
lemma trans (h : Spent s t) (h' : Spent t u) : Spent s u :=
  Multiset.Rel.trans Becomes h h'

instance : Trans Spent Spent Spent where
  trans := trans

/-- Open ends may be used up in two places. -/
lemma add (h : Spent s t) (h' : Spent u v) : Spent (s + u) (t + v) :=
  Multiset.Rel.add h h'

/-- What is added to both sides does not count. -/
lemma add_right (h : Spent s t) (u : Multiset Entry) : Spent (s + u) (t + u) :=
  h.add (.refl u)

/-- Open ends may change one by one. -/
lemma of_map {entries : List Entry} {f : Entry → Entry} (h : ∀ x ∈ entries, x.Becomes (f x)) :
    Spent ↑entries ↑(entries.map f) := by
  induction entries with
  | nil => exact .refl 0
  | cons x entries ih =>
    obtain ⟨hx, hentries⟩ := List.forall_mem_cons.mp h
    exact (ih hentries).cons hx

/-- **The open ends at one node** are used up at that node. -/
lemma filter (h : Spent s t) (id : String) :
    Spent (s.filter fun x => x.node = id) (t.filter fun x => x.node = id) := by
  induction h with
  | zero => exact .refl 0
  | @cons x y s t hxy _ ih =>
    by_cases hx : x.node = id
    · have hy : y.node = id := hxy.1.trans hx
      rw [Multiset.filter_cons_of_pos (p := fun x : Entry => x.node = id) _ hx,
        Multiset.filter_cons_of_pos (p := fun x : Entry => x.node = id) _ hy]
      exact ih.cons hxy
    · have hy : ¬ y.node = id := fun hy => hx (hxy.1.symm.trans hy)
      rwa [Multiset.filter_cons_of_neg (p := fun x : Entry => x.node = id) _ hx,
        Multiset.filter_cons_of_neg (p := fun x : Entry => x.node = id) _ hy]

/-- Open ends with labels stay what they are. -/
lemma eq_of_labelled (h : Spent s t) (hs : ∀ x ∈ s, x.label ≠ none) : s = t := by
  apply Multiset.rel_eq.mp
  apply h.mono
  intro x hx y _ hxy
  obtain ⟨node, label⟩ := x
  obtain ⟨node', label'⟩ := y
  obtain ⟨rfl, hlabel⟩ := hxy
  obtain rfl := hlabel.resolve_left (hs _ hx)
  rfl

end Spent

end Entry

/-- The edges from open ends to a node lead on from these open ends. -/
@[simp] lemma map_origin_link (entries : List Entry) (target : String) :
    (link entries target).map Graph.Edge.origin = entries := by
  simp [link, Graph.Edge.origin, Function.comp_def]

/-! ## What nodes give rise to -/

/-- The labels of the open ends that a node of a kind gives rise to. -/
def NodeKind.Due : NodeKind → List (Option String) → Prop
  | .decision, labels => labels = [some "true", some "false"]
  | .loop, labels => labels = [some "iterate", some "done"]
  | .precondition, labels => ∃ count, labels = some "pass" :: List.replicate count (some "fail")
  | .finish, labels => labels = []
  | .error, labels => labels = []
  | .start, labels => labels = [none]
  | .action, labels => labels = [none]
  | .unsupported, labels => labels = [none]
  | .postcondition, labels => labels = [none]
  | .invariant, labels => labels = [none]

/-- A node that a statement emits gives rise to one open end without a label. -/
lemma Setting.Emits.due {s : Setting} {m : Mark} (h : s.Emits m) : m.kind.Due [none] := by
  rcases h.kind_eq with h | h <;> rw [h] <;> rfl

/-- The open ends that nodes in a row give rise to, by their labels. -/
def dueEnds (size : ℕ) : List (List (Option String)) → Multiset Entry
  | [] => 0
  | labels :: dues => ↑(labels.map fun label => (⟨nodeId (size + 1), label⟩ : Entry)) +
      dueEnds (size + 1) dues

/-- Two rows of nodes give rise to what each of them does. -/
lemma dueEnds_append (size : ℕ) (dues dues' : List (List (Option String))) :
    dueEnds size (dues ++ dues') = dueEnds size dues + dueEnds (size + dues.length) dues' := by
  induction dues generalizing size with
  | nil => simp [dueEnds]
  | cons labels dues ih =>
    rw [List.cons_append, dueEnds, dueEnds, ih, List.length_cons,
      show size + 1 + dues.length = size + (dues.length + 1) by omega, add_assoc]

/-- Nodes that control does not leave give rise to nothing. -/
lemma dueEnds_replicate_nil (size count : ℕ) : dueEnds size (List.replicate count []) = 0 := by
  induction count generalizing size with
  | zero => rfl
  | succ count ih => simp [List.replicate_succ, dueEnds, ih]

/-- Nodes give rise to open ends in their own places. -/
lemma placed_of_mem_dueEnds {size : ℕ} {dues : List (List (Option String))} {x : Entry}
    (h : x ∈ dueEnds size dues) : Placed size (size + dues.length) x.node := by
  induction dues generalizing size with
  | nil => simp [dueEnds] at h
  | cons labels dues ih =>
    rw [dueEnds, Multiset.mem_add, Multiset.mem_coe] at h
    rw [List.length_cons]
    rcases h with h | h
    · obtain ⟨label, -, rfl⟩ := List.mem_map.mp h
      rw [Placed.nodeId_iff]
      omega
    · exact (ih h).mono (by omega) (by omega)

/-- **What one node gives rise to** among nodes in a row. -/
lemma filter_dueEnds {size i : ℕ} {dues : List (List (Option String))}
    {labels : List (Option String)} (h : dues[i]? = some labels) :
    ((dueEnds size dues).filter fun x => x.node = nodeId (size + i + 1)) =
      ↑(labels.map fun label => (⟨nodeId (size + i + 1), label⟩ : Entry)) := by
  obtain ⟨hi, rfl⟩ := List.getElem?_eq_some_iff.mp h
  -- the nodes before the place and those behind it are elsewhere
  have hsplit : dues = dues.take i ++ dues[i] :: dues.drop (i + 1) := by
    rw [List.getElem_cons_drop, List.take_append_drop]
  have hlength : (dues.take i).length = i := List.length_take_of_le (by omega)
  have helsewhere : ∀ {low high} {s : Multiset Entry}, (∀ x ∈ s, Placed low high x.node) →
      high ≤ size + i ∨ size + i + 1 ≤ low →
      (s.filter fun x => x.node = nodeId (size + i + 1)) = 0 := by
    intro low high s hs hrange
    rw [Multiset.filter_eq_nil]
    intro x hx hnode
    have hplaced := hs x hx
    rw [hnode, Placed.nodeId_iff] at hplaced
    omega
  conv_lhs => rw [hsplit]
  rw [dueEnds_append, dueEnds, hlength, Multiset.filter_add, Multiset.filter_add,
    helsewhere (fun x hx => placed_of_mem_dueEnds hx) (.inl (by rw [hlength])),
    helsewhere (fun x hx => placed_of_mem_dueEnds hx) (.inr (Nat.le_refl _)), zero_add, add_zero,
    Multiset.filter_eq_self]
  intro x hx
  obtain ⟨label, -, rfl⟩ := List.mem_map.mp hx
  rfl

/-- A settled part without an end is left where it was entered, any other part where it ends. -/
lemma Drawing.exits_settle (label : Option String) (part : Drawing) (size : ℕ)
    (entries : List Entry) : (Drawing.settle label part size entries).exits =
      if (part size entries).exits = [] then entries.map fun x => ⟨x.node, label⟩
      else (part size entries).exits := by
  rw [Fragment.exits, Drawing.settle, List.append_nil]
  simp only [List.isEmpty_iff]

/-! ## Balanced fragments -/

namespace Fragment

variable {f g : Fragment} {size : ℕ} {entries : List Entry} {s s' : Multiset Entry} {m : Mark}

/-- What a fragment uses open ends for: its edges, and the ends that it leaves open. -/
def uses (f : Fragment) : Multiset Entry :=
  ↑(f.edges.map Graph.Edge.origin) + ↑f.exits

/-- **A balanced fragment** uses up, one for one, the open ends that lead into it, those that its
nodes give rise to, and a surplus. -/
def Balanced (f : Fragment) (size : ℕ) (entries : List Entry) (surplus : Multiset Entry) : Prop :=
  ∃ dues, List.Forall₂ (fun m labels => m.kind.Due labels) f.marks dues ∧
    Entry.Spent (↑entries + dueEnds size dues + surplus) f.uses

namespace Balanced

/-! ### Parts in a row -/

/-- The empty part is balanced. -/
lemma skip (size : ℕ) (entries : List Entry) :
    (Drawing.skip size entries).Balanced size entries 0 := by
  refine ⟨[], .nil, ?_⟩
  simpa [Drawing.skip, uses, exits, dueEnds] using Entry.Spent.refl ↑entries

/-- A node that gives rise to one open end is balanced. -/
lemma mark (hm : m.kind.Due [none]) (size : ℕ) (entries : List Entry) :
    (Drawing.mark m size entries).Balanced size entries 0 := by
  refine ⟨[[none]], .cons hm .nil, ?_⟩
  simpa [Drawing.mark, uses, exits, dueEnds] using Entry.Spent.refl _

/-- A node that control does not leave is balanced. -/
lemma stop (hm : m.kind.Due []) (size : ℕ) (entries : List Entry) :
    (Drawing.stop m size entries).Balanced size entries 0 := by
  refine ⟨[[]], .cons hm .nil, ?_⟩
  simpa [Drawing.stop, Drawing.mark, uses, exits, dueEnds] using Entry.Spent.refl _

/-- **Two balanced parts in a row** are balanced: the second uses up what the first leaves open. -/
lemma andThen {first second : Drawing} (hfirst : (first size entries).Balanced size entries s)
    (hsecond : (second (size + (first size entries).marks.length)
      (first size entries).continues).Balanced (size + (first size entries).marks.length)
      (first size entries).continues s') :
    (Drawing.andThen first second size entries).Balanced size entries (s + s') := by
  set f := first size entries with hf
  set g := second (size + f.marks.length) f.continues with hg
  obtain ⟨dues, hdues, hspent⟩ := hfirst
  obtain ⟨dues', hdues', hspent'⟩ := hsecond
  refine ⟨dues ++ dues', List.rel_append hdues hdues', ?_⟩
  rw [dueEnds_append, ← hdues.length_eq]
  set late := dueEnds (size + f.marks.length) dues' with hlate
  calc ↑entries + (dueEnds size dues + late) + (s + s')
      = (↑entries + dueEnds size dues + s) + (late + s') := by abel
    Entry.Spent _ (f.uses + (late + s')) := hspent.add_right _
    _ = (↑f.continues + late + s') + (↑(f.edges.map Graph.Edge.origin) + ↑f.returns) := by
      rw [uses, exits, ← Multiset.coe_add]
      abel
    Entry.Spent _ (g.uses + (↑(f.edges.map Graph.Edge.origin) + ↑f.returns)) :=
      hspent'.add_right _
    _ = _ := by
      simp only [uses, exits, Drawing.andThen, ← hf, ← hg, List.map_append, ← Multiset.coe_add]
      abel

/-- A fragment with the same nodes and edges is balanced if it has the same open ends. -/
lemma congr (hf : f.Balanced size entries s) (hmarks : g.marks = f.marks)
    (hedges : g.edges = f.edges) (hexits : g.exits.Perm f.exits) :
    g.Balanced size entries s := by
  obtain ⟨dues, hdues, hspent⟩ := hf
  refine ⟨dues, hmarks ▸ hdues, ?_⟩
  rwa [uses, hedges, Multiset.coe_eq_coe.mpr hexits]

/-- A part that returns by labels of its own is balanced if it is entered without labels. -/
lemma returning (label : String) (hentries : ∀ x ∈ entries, x.label = none) :
    (Drawing.returning label size entries).Balanced size entries 0 := by
  refine ⟨[], .nil, ?_⟩
  have hspent : Entry.Spent ↑entries
      ↑(entries.map fun x => (⟨x.node, some label⟩ : Entry)) :=
    Entry.Spent.of_map fun x hx => ⟨rfl, .inl (hentries x hx)⟩
  simpa [Drawing.returning, uses, exits, dueEnds] using hspent

/-- **A settled part** is balanced. If it has no end, what led into it is a surplus. -/
lemma settle {part : Drawing} (label : Option String)
    (hf : (part size entries).Balanced size entries s) :
    (Drawing.settle label part size entries).Balanced size entries
      (s + if (part size entries).exits = [] then
        ↑(entries.map fun x => (⟨x.node, label⟩ : Entry)) else 0) := by
  have hsettled := Drawing.exits_settle label part size entries
  by_cases hexits : (part size entries).exits = []
  · obtain ⟨dues, hdues, hspent⟩ := hf
    refine ⟨dues, hdues, ?_⟩
    rw [if_pos hexits] at hsettled ⊢
    rw [uses, hsettled, ← add_assoc]
    rw [uses, hexits, Multiset.coe_nil, add_zero] at hspent
    exact hspent.add_right _
  · rw [if_neg hexits] at hsettled ⊢
    rw [add_zero]
    exact hf.congr rfl rfl (.of_eq hsettled)

/-! ### Choices and loops -/

/-- **A choice between balanced parts** is balanced. -/
lemma branch (label : String) (hf : f.Balanced (size + 1) [⟨nodeId (size + 1), some "true"⟩] 0)
    (hg : g.Balanced (size + 1 + f.marks.length) [⟨nodeId (size + 1), some "false"⟩] 0) :
    (⟨⟨.decision, label⟩ :: (f.marks ++ g.marks),
      link entries (nodeId (size + 1)) ++ f.edges ++ g.edges, f.continues ++ g.continues,
      f.returns ++ g.returns⟩ : Fragment).Balanced size entries 0 := by
  obtain ⟨dues, hdues, hspent⟩ := hf
  obtain ⟨dues', hdues', hspent'⟩ := hg
  refine ⟨[some "true", some "false"] :: (dues ++ dues'),
    .cons rfl (List.rel_append hdues hdues'), ?_⟩
  rw [dueEnds, dueEnds_append, ← hdues.length_eq, add_zero]
  rw [add_zero] at hspent hspent'
  set first := dueEnds (size + 1) dues with hfirst
  set second := dueEnds (size + 1 + f.marks.length) dues' with hsecond
  set onTrue : Entry := ⟨nodeId (size + 1), some "true"⟩ with honTrue
  set onFalse : Entry := ⟨nodeId (size + 1), some "false"⟩ with honFalse
  calc (↑entries : Multiset Entry) + (↑[onTrue, onFalse] + (first + second))
      = ↑entries + ((↑[onTrue] + first) + (↑[onFalse] + second)) := by
        rw [show [onTrue, onFalse] = [onTrue] ++ [onFalse] from rfl, ← Multiset.coe_add]
        abel
    Entry.Spent _ (↑entries + (f.uses + g.uses)) := (Entry.Spent.refl _).add (hspent.add hspent')
    _ = _ := by
      simp only [uses, exits, List.map_append, map_origin_link, ← Multiset.coe_add]
      abel

/-- **A loop over a balanced part** is balanced. -/
lemma loop (label : String) (hf : f.Balanced (size + 1) [⟨nodeId (size + 1), some "iterate"⟩] 0) :
    (⟨⟨.loop, label⟩ :: f.marks, link entries (nodeId (size + 1)) ++ f.edges ++
      Drawing.backEdges f.continues (nodeId (size + 1)), [⟨nodeId (size + 1), some "done"⟩],
      f.returns⟩ : Fragment).Balanced size entries 0 := by
  obtain ⟨dues, hdues, hspent⟩ := hf
  refine ⟨[some "iterate", some "done"] :: dues, .cons rfl hdues, ?_⟩
  rw [dueEnds, add_zero]
  rw [add_zero] at hspent
  set inside := dueEnds (size + 1) dues with hinside
  set again : Entry := ⟨nodeId (size + 1), some "iterate"⟩ with hagain
  set out : Entry := ⟨nodeId (size + 1), some "done"⟩ with hout
  -- the ends of a round get labels of their own, if they have none
  have hback : Entry.Spent ↑f.continues
      ↑((Drawing.backEdges f.continues (nodeId (size + 1))).map Graph.Edge.origin) := by
    rw [Drawing.backEdges, List.map_map]
    apply Entry.Spent.of_map
    intro x _
    refine ⟨rfl, ?_⟩
    cases hlabel : x.label with
    | none => exact .inl rfl
    | some text => exact .inr (by simp [Graph.Edge.origin, hlabel])
  calc (↑entries : Multiset Entry) + (↑[again, out] + inside)
      = ↑entries + ↑[out] + (↑[again] + inside) := by
        rw [show [again, out] = [again] ++ [out] from rfl, ← Multiset.coe_add]
        abel
    Entry.Spent _ (↑entries + ↑[out] + f.uses) := (Entry.Spent.refl _).add hspent
    _ = (↑entries + ↑[out] + ↑(f.edges.map Graph.Edge.origin) + ↑f.returns) + ↑f.continues := by
      rw [uses, exits, ← Multiset.coe_add]
      abel
    Entry.Spent _ _ := (Entry.Spent.refl _).add hback
    _ = _ := by
      simp only [uses, exits, List.map_append, map_origin_link, ← Multiset.coe_add]
      abel

/-! ### Preconditions -/

/-- **A precondition** is balanced. -/
lemma guard (place : ℕ) (tags : List String) (size : ℕ) (entries : List Entry) :
    (Drawing.guard place tags size entries).Balanced size entries 0 := by
  rw [Drawing.guard_eq]
  set count := (Drawing.errorMarks place tags).length with hcount
  have herrors : List.Forall₂ (fun m labels => m.kind.Due labels) (Drawing.errorMarks place tags)
      (List.replicate count []) := by
    rw [List.forall₂_iff_get]
    refine ⟨by simp [hcount], fun i hi _ => ?_⟩
    simp [Drawing.errorMarks, NodeKind.Due]
  refine ⟨(some "pass" :: List.replicate count (some "fail")) :: List.replicate count [],
    .cons ⟨count, rfl⟩ herrors, ?_⟩
  rw [dueEnds, dueEnds_replicate_nil, add_zero, add_zero]
  have hfailures : (Drawing.failureEdges size count).map Graph.Edge.origin =
      List.replicate count ⟨nodeId (size + 1), some "fail"⟩ := by
    simp [Drawing.failureEdges, Graph.Edge.origin, Function.comp_def]
  convert! Entry.Spent.refl _ using 1
  simp only [uses, exits, List.map_append, map_origin_link, hfailures, List.map_cons,
    List.map_replicate, Multiset.coe_add, List.append_assoc, Multiset.coe_eq_coe]
  exact (List.perm_append_comm).append_left entries

end Balanced

end Fragment

/-! ## Balanced parts -/

namespace Drawing

/-- A part that is balanced wherever it is drawn. -/
def Balanced (part : Drawing) : Prop :=
  ∀ size entries, (part size entries).Balanced size entries 0

/-- Balanced parts in a row are balanced. -/
lemma serial_balanced : Serial Balanced where
  skip := .skip
  andThen hfirst hsecond := fun size entries => (hfirst size entries).andThen (hsecond _ _)

/-- **The parts that are drawn of statements are balanced.** -/
lemma hereditary_balanced {s : Setting} : Hereditary s Balanced where
  skip := serial_balanced.skip
  mark hm := .mark hm.due
  stop _ := .stop rfl
  andThen hfirst hsecond _ := serial_balanced.andThen hfirst hsecond
  whenLive hpart := by
    intro size entries
    unfold whenLive
    split_ifs
    · exact .skip size entries
    · exact hpart size entries
  leaving hpart := fun size entries => (hpart size entries).congr rfl rfl (.refl _)
  branch t htrue hfalse := fun size entries => .branch t.branchLabel (htrue _ _) (hfalse _ _)
  loop t form hbody := fun size entries => .loop (t.loopLabel form) (hbody _ _)

end Drawing

end Flowchart
