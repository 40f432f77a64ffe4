import Flowchart.Proofs.Flow.Discipline
import Mathlib.Logic.Relation

set_option relaxedAutoImplicit false
set_option autoImplicit false

/-!
# Connected charts

Every node of a chart is reached from its start, and from every node there is a path to the finish
or to an error. A part is drawn only where control gets to it, so its nodes are reached from where
it is entered, and from each of them control gets to an open end of the part or stops at an error.

## Main definitions

* `Flowchart.Leads`: paths along edges.
* `Flowchart.Fragment.Connected`: a part is reached from where it is entered, and left.
* `Flowchart.Graph.Connected`: a flow graph between two terminals without stuck nodes.

## Main results

* `Flowchart.Drawing.hereditary_connected`: the parts that are drawn of statements are connected.
* `Flowchart.Artifact.connected`: the charts of contracts and scenarios are connected.
-/

namespace Flowchart

/-! ## Paths -/

/-- Whether a path along some edges leads from one node to another. -/
def Leads (edges : List Graph.Edge) : String → String → Prop :=
  Relation.ReflTransGen fun u v => ∃ e ∈ edges, e.source = u ∧ e.target = v

namespace Leads

variable {edges edges' : List Graph.Edge} {u v x : String}

/-- A path may stay where it is. -/
lemma refl (u : String) : Leads edges u u :=
  Relation.ReflTransGen.refl

/-- Two paths, one behind the other. -/
lemma trans (h : Leads edges u v) (h' : Leads edges v x) : Leads edges u x :=
  Relation.ReflTransGen.trans h h'

/-- The path along a single edge. -/
lemma single {e : Graph.Edge} (he : e ∈ edges) : Leads edges e.source e.target :=
  Relation.ReflTransGen.single ⟨e, he, rfl, rfl⟩

/-- A path is a path along any edges that include its own. -/
lemma mono (h : Leads edges u v) (hsub : edges ⊆ edges') : Leads edges' u v := by
  induction h with
  | refl => exact .refl u
  | tail _ hstep ih =>
    obtain ⟨e, he, rfl, rfl⟩ := hstep
    exact ih.trans (.single (hsub he))

/-- Open ends that are linked to a node lead there. -/
lemma link {entries : List Entry} {target : String} (h : Enters entries u) :
    Leads (link entries target) u target := by
  obtain ⟨l, hl⟩ := h
  exact single (e := ⟨u, target, l⟩) (List.mem_map.mpr ⟨⟨u, l⟩, hl, rfl⟩)

end Leads

/-! ## Errors among nodes -/

/-- Whether an identifier is that of an error among the nodes behind `size` others. -/
def ErrorAt (marks : List Mark) (size : ℕ) (id : String) : Prop :=
  ∃ i m, marks[i]? = some m ∧ m.kind = .error ∧ id = nodeId (size + i + 1)

namespace ErrorAt

variable {ms ns : List Mark} {size : ℕ} {id : String}

/-- An error among the first nodes. -/
lemma append_left (h : ErrorAt ms size id) : ErrorAt (ms ++ ns) size id := by
  obtain ⟨i, m, hm, hkind, rfl⟩ := h
  have hi : i < ms.length := (List.getElem?_eq_some_iff.mp hm).1
  exact ⟨i, m, (List.getElem?_append_left hi).trans hm, hkind, rfl⟩

/-- An error among the last nodes. -/
lemma append_right (h : ErrorAt ns (size + ms.length) id) : ErrorAt (ms ++ ns) size id := by
  obtain ⟨i, m, hm, hkind, rfl⟩ := h
  refine ⟨ms.length + i, m, ?_, hkind, by rw [Nat.add_assoc size]⟩
  rw [List.getElem?_append_right (by omega), Nat.add_sub_cancel_left]
  exact hm

/-- An error behind a first node. -/
lemma cons {m : Mark} (h : ErrorAt ms (size + 1) id) : ErrorAt (m :: ms) size id := by
  rw [show m :: ms = [m] ++ ms from rfl]
  exact append_right h

end ErrorAt

/-! ## Connected fragments -/

namespace Fragment

variable {f : Fragment} {size : ℕ} {entries : List Entry} {m : Mark}

/-- Where control leaves a fragment or stops: at open ends and errors. -/
def Ending (f : Fragment) (size : ℕ) (id : String) : Prop :=
  Enters f.exits id ∨ ErrorAt f.marks size id

/-- **A connected fragment**: if it is entered at all, its nodes and open ends are reached from
where it is entered, and from there and from all its nodes it is left. -/
structure Connected (f : Fragment) (size : ℕ) (entries : List Entry) : Prop where
  reached : entries ≠ [] → ∀ v, Placed size (size + f.marks.length) v ∨ Enters f.exits v →
    ∃ u, Enters entries u ∧ Leads f.edges u v
  left : ∀ u, Enters entries u ∨ Placed size (size + f.marks.length) u →
    ∃ v, f.Ending size v ∧ Leads f.edges u v

/-- There is an open end among several. -/
lemma exists_enters (h : entries ≠ []) : ∃ u, Enters entries u := by
  obtain ⟨x, hx⟩ := List.exists_mem_of_ne_nil entries h
  exact ⟨x.node, x.label, hx⟩

/-- A place among those of one node is that of the node. -/
lemma placed_succ_iff {id : String} : Placed size (size + 1) id ↔ id = nodeId (size + 1) := by
  constructor
  · rintro ⟨k, hlow, hhigh, rfl⟩
    rw [nodeId_inj]
    omega
  · rintro rfl
    rw [Placed.nodeId_iff]
    omega

/-- A place among those of nodes in a row is that of the first node or one behind it. -/
lemma placed_cons_iff {count : ℕ} {id : String} :
    Placed size (size + (count + 1)) id ↔
      id = nodeId (size + 1) ∨ Placed (size + 1) (size + 1 + count) id := by
  constructor
  · rintro ⟨k, hlow, hhigh, rfl⟩
    rw [nodeId_inj, Placed.nodeId_iff]
    omega
  · rintro (rfl | ⟨k, hlow, hhigh, rfl⟩) <;> rw [Placed.nodeId_iff] <;> omega

/-- A place among those of two rows of nodes is one of the first or one of the second row. -/
lemma placed_append_iff {count count' : ℕ} {id : String} :
    Placed size (size + (count + count')) id ↔
      Placed size (size + count) id ∨ Placed (size + count) (size + count + count') id := by
  constructor
  · rintro ⟨k, hlow, hhigh, rfl⟩
    rw [Placed.nodeId_iff, Placed.nodeId_iff]
    omega
  · rintro (⟨k, hlow, hhigh, rfl⟩ | ⟨k, hlow, hhigh, rfl⟩) <;> rw [Placed.nodeId_iff] <;> omega

namespace Connected

/-! ### Parts in a row -/

/-- A fragment without nodes is connected if it is left where it is entered. -/
lemma of_no_nodes (hmarks : f.marks = []) (hexits : ∀ id, Enters f.exits id ↔ Enters entries id) :
    f.Connected size entries := by
  have hnone : ∀ id, ¬ Placed size (size + f.marks.length) id := by
    rintro id ⟨k, hlow, hhigh, rfl⟩
    rw [hmarks, List.length_nil] at hhigh
    omega
  refine ⟨fun _ v hv => ?_, fun u hu => ?_⟩
  · exact ⟨v, (hexits v).mp (hv.resolve_left (hnone v)), .refl v⟩
  · exact ⟨u, .inl ((hexits u).mpr (hu.resolve_right (hnone u))), .refl u⟩

/-- A fragment of one node is connected if control leaves it there or stops. -/
lemma of_node (hmarks : f.marks = [m]) (hedges : f.edges = link entries (nodeId (size + 1)))
    (hexits : ∀ id, Enters f.exits id → id = nodeId (size + 1))
    (hending : f.Ending size (nodeId (size + 1))) : f.Connected size entries := by
  have hlength : f.marks.length = 1 := by rw [hmarks, List.length_singleton]
  refine ⟨fun hne v hv => ?_, fun u hu => ?_⟩
  · obtain ⟨u, hu⟩ := exists_enters hne
    rw [hlength, placed_succ_iff] at hv
    obtain rfl : v = nodeId (size + 1) := hv.elim id (hexits v)
    exact ⟨u, hu, hedges ▸ .link hu⟩
  · refine ⟨nodeId (size + 1), hending, ?_⟩
    rw [hlength, placed_succ_iff] at hu
    rcases hu with hu | rfl
    · exact hedges ▸ .link hu
    · exact .refl _

/-- **Two connected parts in a row** are connected. The second may have no nodes where control never
gets to it. -/
lemma andThen {first second : Drawing} (hfirst : (first size entries).Connected size entries)
    (hsecond : (second (size + (first size entries).marks.length)
      (first size entries).continues).Connected (size + (first size entries).marks.length)
      (first size entries).continues)
    (hlive : first.Open ∨ second.Dormant) :
    (Drawing.andThen first second size entries).Connected size entries := by
  set f := first size entries with hf
  set g := second (size + f.marks.length) f.continues with hg
  have hlength : (Drawing.andThen first second size entries).marks.length =
      f.marks.length + g.marks.length := by
    simp [Drawing.andThen, ← hf, ← hg]
  have hexits : ∀ id, Enters (Drawing.andThen first second size entries).exits id ↔
      Enters f.returns id ∨ Enters g.exits id := by
    intro id
    simp only [Enters, exits, Drawing.andThen, ← hf, ← hg, List.mem_append, ← exists_or]
    exact exists_congr fun l => by tauto
  have hleft : f.edges ⊆ (Drawing.andThen first second size entries).edges :=
    List.subset_append_left _ _
  have hright : g.edges ⊆ (Drawing.andThen first second size entries).edges :=
    List.subset_append_right _ _
  -- from where the second part is entered, control leaves it or stops in it
  have hbehind : ∀ u, Enters f.continues u ∨
      Placed (size + f.marks.length) (size + f.marks.length + g.marks.length) u →
      ∃ v, (Drawing.andThen first second size entries).Ending size v ∧
        Leads (Drawing.andThen first second size entries).edges u v := by
    intro u hu
    obtain ⟨v, hv, hpath⟩ := hsecond.left u hu
    refine ⟨v, ?_, hpath.mono hright⟩
    exact hv.imp (fun hv => (hexits v).mpr (.inr hv)) ErrorAt.append_right
  refine ⟨fun hne v hv => ?_, fun u hu => ?_⟩
  · rw [hlength, placed_append_iff, hexits] at hv
    have hfirstPart : Placed size (size + f.marks.length) v ∨ Enters f.exits v →
        ∃ u, Enters entries u ∧ Leads (Drawing.andThen first second size entries).edges u v := by
      intro hv
      obtain ⟨u, hu, hpath⟩ := hfirst.reached hne v hv
      exact ⟨u, hu, hpath.mono hleft⟩
    have hsecondPart : Placed (size + f.marks.length) (size + f.marks.length + g.marks.length) v ∨
        Enters g.exits v →
        ∃ u, Enters entries u ∧ Leads (Drawing.andThen first second size entries).edges u v := by
      intro hv
      have hopen : f.continues ≠ [] := by
        intro hnil
        rcases hlive with hopen | hdormant
        · exact hopen size entries hne hnil
        · have hskip : g = Drawing.skip (size + f.marks.length) [] := by
            rw [hg, hnil, hdormant]
          rw [hskip] at hv
          rcases hv with ⟨k, hlow, hhigh, -⟩ | ⟨l, hl⟩
          · simp [Drawing.skip] at hhigh
            omega
          · simp [Drawing.skip, exits] at hl
      obtain ⟨u, ⟨l, hl⟩, hpath⟩ := hsecond.reached hopen v hv
      obtain ⟨u', hu', hpath'⟩ := hfirst.reached hne u (.inr ⟨l, List.mem_append_left _ hl⟩)
      exact ⟨u', hu', (hpath'.mono hleft).trans (hpath.mono hright)⟩
    rcases hv with (hv | hv) | ⟨l, hl⟩ | hv
    · exact hfirstPart (.inl hv)
    · exact hsecondPart (.inl hv)
    · exact hfirstPart (.inr ⟨l, List.mem_append_right _ hl⟩)
    · exact hsecondPart (.inr hv)
  · rw [hlength, placed_append_iff, ← or_assoc] at hu
    rcases hu with hu | hu
    · obtain ⟨v, hv, hpath⟩ := hfirst.left u hu
      rcases hv with ⟨l, hl⟩ | herror
      · rcases List.mem_append.mp hl with hl | hl
        · obtain ⟨x, hx, hpath'⟩ := hbehind v (.inl ⟨l, hl⟩)
          exact ⟨x, hx, (hpath.mono hleft).trans hpath'⟩
        · exact ⟨v, .inl ((hexits v).mpr (.inl ⟨l, hl⟩)), hpath.mono hleft⟩
      · exact ⟨v, .inr herror.append_left, hpath.mono hleft⟩
    · exact hbehind u (.inr hu)

/-- A fragment with the same nodes and edges is connected if it has the same open ends. -/
lemma congr {g : Fragment} (hf : f.Connected size entries) (hmarks : g.marks = f.marks)
    (hedges : g.edges = f.edges) (hexits : ∀ id, Enters g.exits id ↔ Enters f.exits id) :
    g.Connected size entries := by
  refine ⟨fun hne v hv => ?_, fun u hu => ?_⟩
  · rw [hmarks, hexits] at hv
    rw [hedges]
    exact hf.reached hne v hv
  · rw [hmarks] at hu
    obtain ⟨v, hv, hpath⟩ := hf.left u hu
    rw [hedges]
    exact ⟨v, hv.imp (hexits v).mpr fun herror => hmarks ▸ herror, hpath⟩

/-- **A settled part** is connected. If it has no end, it is also left from where it was entered. -/
lemma settle {part : Drawing} (label : Option String)
    (hf : (part size entries).Connected size entries) :
    (Drawing.settle label part size entries).Connected size entries := by
  have hsettled := Drawing.exits_settle label part size entries
  by_cases hexits : (part size entries).exits = []
  · rw [if_pos hexits] at hsettled
    have henters : ∀ id, Enters (Drawing.settle label part size entries).exits id ↔
        Enters entries id := by
      intro id
      rw [hsettled]
      constructor
      · rintro ⟨l, hl⟩
        obtain ⟨x, hx, heq⟩ := List.mem_map.mp hl
        obtain ⟨rfl, -⟩ := Entry.mk.inj heq
        exact ⟨x.label, hx⟩
      · rintro ⟨l, hl⟩
        exact ⟨label, List.mem_map.mpr ⟨⟨id, l⟩, hl, rfl⟩⟩
    refine ⟨fun hne v hv => ?_, fun u hu => ?_⟩
    · rw [henters] at hv
      rcases hv with hv | hv
      · exact hf.reached hne v (.inl hv)
      · exact ⟨v, hv, .refl v⟩
    · obtain ⟨v, hv, hpath⟩ := hf.left u hu
      refine ⟨v, .inr (hv.resolve_left ?_), hpath⟩
      rintro ⟨l, hl⟩
      exact absurd (hexits ▸ hl) List.not_mem_nil
  · rw [if_neg hexits] at hsettled
    exact hf.congr rfl rfl fun id => by rw [hsettled]

/-! ### Parts behind a node -/

/-- **A fragment that starts with a node** is connected if control gets from there to all its other
nodes and ends, and from all of these to an end, an error, or back to the node. -/
lemma of_head (m : Mark) (ms : List Mark) (rest : List Graph.Edge) (hmarks : f.marks = m :: ms)
    (hedges : f.edges = link entries (nodeId (size + 1)) ++ rest)
    (hreached : ∀ v, Placed (size + 1) (size + 1 + ms.length) v ∨ Enters f.exits v →
      Leads rest (nodeId (size + 1)) v)
    (hhead : ∃ v, f.Ending size v ∧ Leads rest (nodeId (size + 1)) v)
    (hleft : ∀ u, Placed (size + 1) (size + 1 + ms.length) u →
      ∃ v, (f.Ending size v ∨ v = nodeId (size + 1)) ∧ Leads rest u v) :
    f.Connected size entries := by
  have hrest : rest ⊆ f.edges := hedges ▸ List.subset_append_right _ _
  have hlink : ∀ u, Enters entries u → Leads f.edges u (nodeId (size + 1)) := fun u hu =>
    (Leads.link hu).mono (hedges ▸ List.subset_append_left _ _)
  obtain ⟨last, hlast, hpath⟩ := hhead
  refine ⟨fun hne v hv => ?_, fun u hu => ?_⟩
  · obtain ⟨u, hu⟩ := exists_enters hne
    rw [hmarks, List.length_cons, placed_cons_iff] at hv
    refine ⟨u, hu, (hlink u hu).trans ?_⟩
    rcases hv with (rfl | hv) | hv
    · exact .refl _
    · exact (hreached v (.inl hv)).mono hrest
    · exact (hreached v (.inr hv)).mono hrest
  · rw [hmarks, List.length_cons, placed_cons_iff] at hu
    rcases hu with hu | rfl | hu
    · exact ⟨last, hlast, (hlink u hu).trans (hpath.mono hrest)⟩
    · exact ⟨last, hlast, hpath.mono hrest⟩
    · obtain ⟨v, hv | rfl, hpath'⟩ := hleft u hu
      · exact ⟨v, hv, hpath'.mono hrest⟩
      · exact ⟨last, hlast, (hpath'.mono hrest).trans (hpath.mono hrest)⟩

/-- A part that is entered at one node is reached from there. -/
lemma leads_of_single {f : Fragment} {low : ℕ} {u v : String} {l : Option String}
    (hf : f.Connected low [⟨u, l⟩])
    (hv : Placed low (low + f.marks.length) v ∨ Enters f.exits v) : Leads f.edges u v := by
  obtain ⟨u', hu', hpath⟩ := hf.reached (List.cons_ne_nil _ _) v hv
  rwa [Walk.enters_singleton.mp hu'] at hpath

/-- **A choice between connected parts** is connected. -/
lemma branch {whenTrue whenFalse : Drawing} (label : String)
    (htrue : ∀ size entries, (whenTrue size entries).Connected size entries)
    (hfalse : ∀ size entries, (whenFalse size entries).Connected size entries) :
    (Drawing.branch label whenTrue whenFalse size entries).Connected size entries := by
  set f := whenTrue (size + 1) [⟨nodeId (size + 1), some "true"⟩] with hf
  set g := whenFalse (size + 1 + f.marks.length) [⟨nodeId (size + 1), some "false"⟩] with hg
  set whole := Drawing.branch label whenTrue whenFalse size entries with hwhole
  have hfc : f.Connected (size + 1) [⟨nodeId (size + 1), some "true"⟩] := htrue _ _
  have hgc : g.Connected (size + 1 + f.marks.length) [⟨nodeId (size + 1), some "false"⟩] :=
    hfalse _ _
  have hexits : ∀ id, Enters whole.exits id ↔ Enters f.exits id ∨ Enters g.exits id := by
    intro id
    simp only [Enters, exits, hwhole, Drawing.branch, ← hf, ← hg, List.mem_append, ← exists_or]
    exact exists_congr fun l => by tauto
  have hfending : ∀ id, f.Ending (size + 1) id → whole.Ending size id :=
    fun id h => h.imp (fun h => (hexits id).mpr (.inl h)) fun h => h.append_left.cons
  have hgending : ∀ id, g.Ending (size + 1 + f.marks.length) id → whole.Ending size id :=
    fun id h => h.imp (fun h => (hexits id).mpr (.inr h)) fun h => h.append_right.cons
  have hfsub : f.edges ⊆ f.edges ++ g.edges := List.subset_append_left _ _
  have hgsub : g.edges ⊆ f.edges ++ g.edges := List.subset_append_right _ _
  have hhead : Enters [⟨nodeId (size + 1), some "true"⟩] (nodeId (size + 1)) :=
    Walk.enters_singleton.mpr rfl
  refine of_head ⟨.decision, label⟩ (f.marks ++ g.marks) (f.edges ++ g.edges) rfl
    (List.append_assoc _ _ _) (fun v hv => ?_) ?_ fun u hu => ?_
  · rw [List.length_append, placed_append_iff, hexits] at hv
    rcases hv with (hv | hv) | hv | hv
    · exact (hfc.leads_of_single (.inl hv)).mono hfsub
    · exact (hgc.leads_of_single (.inl hv)).mono hgsub
    · exact (hfc.leads_of_single (.inr hv)).mono hfsub
    · exact (hgc.leads_of_single (.inr hv)).mono hgsub
  · obtain ⟨v, hv, hpath⟩ := hfc.left _ (.inl hhead)
    exact ⟨v, hfending v hv, hpath.mono hfsub⟩
  · rw [List.length_append, placed_append_iff] at hu
    rcases hu with hu | hu
    · obtain ⟨v, hv, hpath⟩ := hfc.left u (.inr hu)
      exact ⟨v, .inl (hfending v hv), hpath.mono hfsub⟩
    · obtain ⟨v, hv, hpath⟩ := hgc.left u (.inr hu)
      exact ⟨v, .inl (hgending v hv), hpath.mono hgsub⟩

/-- **A loop over a connected part** is connected: where a round goes on, control gets back. -/
lemma loop {body : Drawing} (label : String)
    (hbody : ∀ size entries, (body size entries).Connected size entries) :
    (Drawing.loop label body size entries).Connected size entries := by
  set top := nodeId (size + 1) with htop
  set f := body (size + 1) [⟨top, some "iterate"⟩] with hf
  set whole := Drawing.loop label body size entries with hwhole
  have hfc : f.Connected (size + 1) [⟨top, some "iterate"⟩] := hbody _ _
  have hexits : ∀ id, Enters whole.exits id ↔ id = top ∨ Enters f.returns id := by
    intro id
    simp only [Enters, exits, hwhole, Drawing.loop, ← htop, ← hf, List.cons_append,
      List.nil_append, List.mem_cons, Entry.mk.injEq, exists_or]
    simp
  have htopEnding : whole.Ending size top := .inl ((hexits top).mpr (.inl rfl))
  have hsub : f.edges ⊆ f.edges ++ Drawing.backEdges f.continues top :=
    List.subset_append_left _ _
  refine of_head ⟨.loop, label⟩ f.marks (f.edges ++ Drawing.backEdges f.continues top) rfl
    (List.append_assoc _ _ _) (fun v hv => ?_) ⟨top, htopEnding, .refl top⟩ fun u hu => ?_
  · rw [hexits] at hv
    rcases hv with hv | rfl | ⟨l, hl⟩
    · exact (hfc.leads_of_single (.inl hv)).mono hsub
    · exact .refl _
    · exact (hfc.leads_of_single (.inr ⟨l, List.mem_append_right _ hl⟩)).mono hsub
  · obtain ⟨v, hv, hpath⟩ := hfc.left u (.inr hu)
    rcases hv with ⟨l, hl⟩ | herror
    · rcases List.mem_append.mp hl with hl | hl
      · have hback : (⟨v, top, some (l.getD "next")⟩ : Graph.Edge) ∈
            f.edges ++ Drawing.backEdges f.continues top :=
          List.mem_append_right _ (Walk.mem_backEdges.mpr ⟨v, l, hl, rfl⟩)
        exact ⟨top, .inr rfl, (hpath.mono hsub).trans (.single hback)⟩
      · exact ⟨v, .inl (.inl ((hexits v).mpr (.inr ⟨l, hl⟩))), hpath.mono hsub⟩
    · exact ⟨v, .inl (.inr herror.cons), hpath.mono hsub⟩

/-- **A precondition** is connected: control goes on where it holds and stops at its errors. -/
lemma guard (place : ℕ) (tags : List String) :
    (Drawing.guard place tags size entries).Connected size entries := by
  rw [Drawing.guard_eq]
  set errors := Drawing.errorMarks place tags with herrors
  have hexit : ∀ id, Enters [⟨nodeId (size + 1), some "pass"⟩] id ↔ id = nodeId (size + 1) :=
    fun id => Walk.enters_singleton
  have hhead : Enters [⟨nodeId (size + 1), some "pass"⟩] (nodeId (size + 1)) :=
    (hexit _).mpr rfl
  refine of_head (preconditionMark place) errors (Drawing.failureEdges size errors.length) rfl rfl
    (fun v hv => ?_) ⟨_, .inl hhead, .refl _⟩ fun u hu => ?_
  · rcases hv with ⟨k, hlow, hhigh, rfl⟩ | hv
    · have he : (⟨nodeId (size + 1), nodeId k, some "fail"⟩ : Graph.Edge) ∈
          Drawing.failureEdges size errors.length := by
        refine List.mem_map.mpr ⟨k - (size + 2), List.mem_range.mpr (by omega), ?_⟩
        rw [show size + 1 + (k - (size + 2)) + 1 = k by omega]
      exact .single he
    · rw [(hexit v).mp hv]
      exact .refl _
  · obtain ⟨k, hlow, hhigh, rfl⟩ := hu
    have hk : k - (size + 2) < errors.length := by omega
    refine ⟨nodeId k, .inl (.inr (.cons ⟨k - (size + 2), errors[k - (size + 2)],
      List.getElem?_eq_getElem hk, ?_, ?_⟩)), .refl _⟩
    · obtain ⟨text, -, heq⟩ := List.mem_map.mp (List.getElem_mem hk)
      rw [← heq]
    · rw [nodeId_inj]
      omega

end Connected

end Fragment

/-! ## Connected parts -/

namespace Drawing

/-- A part that is connected wherever it is drawn. -/
def Connected (part : Drawing) : Prop :=
  ∀ size entries, (part size entries).Connected size entries

/-- A part without nodes that control goes through is connected. -/
lemma connected_skip : Connected skip :=
  fun _ _ => .of_no_nodes rfl fun id => by simp [skip, Fragment.exits]

/-- A node that control passes is connected. -/
lemma connected_mark (m : Mark) : Connected (mark m) :=
  fun _ _ => .of_node rfl rfl (fun _ h => Walk.enters_singleton.mp h)
    (.inl (Walk.enters_singleton.mpr rfl))

/-- **The parts that are drawn of statements are connected.** -/
lemma hereditary_connected {s : Setting} : Hereditary s Connected where
  skip := connected_skip
  mark _ := connected_mark _
  stop _ := fun size entries => .of_node rfl rfl
    (fun id ⟨l, hl⟩ => absurd hl List.not_mem_nil) (.inr ⟨0, _, rfl, rfl, rfl⟩)
  andThen hfirst hsecond hlive := fun size entries =>
    (hfirst size entries).andThen (hsecond _ _) hlive
  whenLive hpart := by
    intro size entries
    unfold whenLive
    split_ifs
    · exact connected_skip size entries
    · exact hpart size entries
  leaving hpart := fun size entries => (hpart size entries).congr rfl rfl fun _ => Iff.rfl
  branch t htrue hfalse := fun _ _ => .branch t.branchLabel htrue hfalse
  loop t form hbody := fun _ _ => .loop (t.loopLabel form) hbody

/-- Parts in a row that are left are connected if each of them is. -/
lemma serial_connected : Serial fun part => part.Open ∧ part.Connected where
  skip := ⟨open_skip, connected_skip⟩
  andThen hfirst hsecond := ⟨hfirst.1.andThen hsecond.1, fun size entries =>
    (hfirst.2 size entries).andThen (hsecond.2 _ _) (.inl hfirst.1)⟩

end Drawing

/-! ## Connected graphs -/

/-- **A flow graph between two terminals without stuck nodes.** Its first node is its only start and
its second node its only finish. Every node is reached from the start, from every node there is a
path to the finish or to an error, and no other nodes are without outgoing edges. -/
structure Graph.Connected (g : Graph) : Prop where
  start : g.nodesOfKind .start = [⟨nodeId 1, .start, "start", 1⟩]
  finish : ∃ label, g.nodesOfKind .finish = [⟨nodeId 2, .finish, label, 2⟩]
  reached : ∀ n ∈ g.nodes, Leads g.edges (nodeId 1) n.id
  left : ∀ n ∈ g.nodes, ∃ m ∈ g.nodes, (m.kind = .finish ∨ m.kind = .error) ∧
    Leads g.edges n.id m.id
  stuck : ∀ n ∈ g.nodes, g.edgesFrom n.id = [] ↔ n.kind = .finish ∨ n.kind = .error

/-- Only the finish and errors give rise to no open end. -/
lemma NodeKind.due_nil {k : NodeKind} (h : k.Due []) : k = .finish ∨ k = .error := by
  cases k <;> simp_all [Due]

namespace Drawing

variable {finish exception : String} {part : Drawing} {g : Graph} {s : Multiset Entry}

/-- **A chart of a connected part is connected**, if control goes on behind the part.

**Proof sketch.** The part is entered from the start, and what it leaves open leads to the finish.
Nodes without edges are those that give rise to no open end. -/
lemma connected_chart (hconnected : part.Connected) (hopen : part.Open) (hsettled : part.Settled)
    (hdraws : Draws (fun m => m.kind ≠ .start ∧ m.kind ≠ .finish) part)
    (hbalanced : (part 2 beginning).Balanced 2 beginning s)
    (hg : (chart finish part).freeze = .ok g) (hdisciplined : g.Disciplined exception) :
    g.Connected := by
  set f := part 2 beginning with hf
  have hpart : f.Connected 2 beginning := hconnected 2 beginning
  have hreturns : f.returns = [] := hsettled 2 beginning
  have hexits : f.exits = f.continues := by rw [Fragment.exits, hreturns, List.append_nil]
  obtain ⟨hnodes, hperm, -⟩ := Draft.freeze_eq_ok hg
  have hsub : ∀ e ∈ f.edges ++ link f.continues (nodeId 2), e ∈ g.edges := by
    rw [← edges_chart finish part]
    exact hperm.symm.subset
  have hedges : ∀ {u v}, Leads f.edges u v → Leads g.edges u v := fun h =>
    h.mono fun e he => hsub e (List.mem_append_left _ he)
  have hlink : ∀ u, Enters f.exits u → Leads g.edges u (nodeId 2) := by
    intro u hu
    rw [hexits] at hu
    exact (Leads.link hu).mono fun e he => hsub e (List.mem_append_right _ he)
  have hstart : ∀ v, Placed 2 (2 + f.marks.length) v ∨ Enters f.exits v →
      Leads g.edges (nodeId 1) v := fun v hv => hedges (hpart.leads_of_single hv)
  -- the nodes of the graph are the terminals and those of the part
  obtain ⟨rest, hrest, hkinds⟩ := exists_nodes_chart hdraws hg
  have hfinish : (⟨nodeId 2, .finish, finish, 2⟩ : Graph.Node) ∈ g.nodes := by
    rw [hrest]
    exact List.mem_cons_of_mem _ List.mem_cons_self
  have hplaces : ∀ n ∈ g.nodes, n.id = nodeId 1 ∨ n.id = nodeId 2 ∨
      Placed 2 (2 + f.marks.length) n.id := by
    intro n hn
    obtain ⟨i, m, hm, rfl⟩ := Draft.mem_nodes_iff.mp (hnodes ▸ hn)
    have hi := (List.getElem?_eq_some_iff.mp hm).1
    rw [marks_chart, List.length_append, ← hf] at hi
    simp only [nodeId_inj, Placed.nodeId_iff, List.length_cons, List.length_nil] at hi ⊢
    omega
  have hending : ∀ u, Enters beginning u ∨ Placed 2 (2 + f.marks.length) u →
      ∃ m ∈ g.nodes, (m.kind = .finish ∨ m.kind = .error) ∧ Leads g.edges u m.id := by
    intro u hu
    obtain ⟨v, hv | herror, hpath⟩ := hpart.left u hu
    · exact ⟨_, hfinish, .inl rfl, (hedges hpath).trans (hlink v hv)⟩
    · obtain ⟨i, m, hm, hkind, rfl⟩ := herror
      refine ⟨⟨nodeId (2 + i + 1), m.kind, m.label, (2 + i + 1 : ℕ)⟩, ?_, .inr hkind, hedges hpath⟩
      rw [hnodes, Draft.mem_nodes_iff]
      refine ⟨2 + i, m, ?_, rfl⟩
      rw [marks_chart, List.getElem?_append_right (by simp)]
      simpa using hm
  refine ⟨?_, ⟨finish, ?_⟩, fun n hn => ?_, fun n hn => ?_, fun n hn => ⟨fun hnil => ?_, ?_⟩⟩
  · have hnone : rest.filter (fun n => n.kind == .start) = [] := by
      rw [List.filter_eq_nil_iff]
      intro n hn hkind
      exact (hkinds n hn).1 (beq_iff_eq.mp hkind)
    simp [Graph.nodesOfKind, hrest, hnone]
  · have hnone : rest.filter (fun n => n.kind == .finish) = [] := by
      rw [List.filter_eq_nil_iff]
      intro n hn hkind
      exact (hkinds n hn).2 (beq_iff_eq.mp hkind)
    simp [Graph.nodesOfKind, hrest, hnone]
  · rcases hplaces n hn with hid | hid | hplaced
    · exact hid ▸ .refl _
    · obtain ⟨u, hu⟩ := Fragment.exists_enters (hopen 2 beginning (List.cons_ne_nil _ _))
      have hu' : Enters f.exits u := hexits ▸ hu
      exact hid ▸ (hstart u (.inr hu')).trans (hlink u hu')
    · exact hstart n.id (.inl hplaced)
  · rcases hplaces n hn with hid | hid | hplaced
    · exact hid ▸ hending _ (.inl (Walk.enters_singleton.mpr rfl))
    · exact hid ▸ ⟨_, hfinish, .inl rfl, .refl _⟩
    · exact hending n.id (.inr hplaced)
  · obtain ⟨labels, hlabels, hspent⟩ := exists_due hbalanced hsettled hg hn
    have hlength := hspent.length_eq
    rw [hnil, List.length_nil, Multiset.card_add, Multiset.coe_card, List.length_map] at hlength
    obtain rfl : labels = [] := List.length_eq_zero_iff.mp (by omega)
    exact NodeKind.due_nil hlabels
  · exact hdisciplined.terminal n hn

end Drawing

/-! ## Contracts and scenarios -/

/-- What is drawn of a transition is connected. -/
lemma Contract.connected_transition (root object : Tree) :
    (Drawing.transition (ofObject root object).transition).Connected := by
  rcases transition_cases root object with ⟨body, hvalue⟩ | hall
  · rw [hvalue]
    intro size entries
    refine .of_no_nodes rfl fun id => ⟨fun ⟨l, hl⟩ => ?_, fun ⟨l, hl⟩ => ?_⟩
    · obtain ⟨x, hx, heq⟩ := List.mem_map.mp hl
      obtain ⟨rfl, -⟩ := Entry.mk.inj heq
      exact ⟨x.label, hx⟩
    · exact ⟨some body.caption, List.mem_map.mpr ⟨⟨id, l⟩, hl, rfl⟩⟩
  · exact hall Drawing.hereditary_connected

/-- A contract is left and connected, from any precondition on. -/
lemma Contract.connected_drawFrom (root object : Tree) (guards : List (List String)) (place : ℕ) :
    ((ofObject root object).drawFrom guards place).Open ∧
      ((ofObject root object).drawFrom guards place).Connected := by
  have hmark := fun m : Mark =>
    (⟨Drawing.open_mark m, Drawing.connected_mark m⟩ :
      (Drawing.mark m).Open ∧ (Drawing.mark m).Connected)
  refine drawFrom_of_serial _ Drawing.serial_connected
    (fun tags _ place => ⟨Drawing.open_guard place tags, fun _ _ => .guard place tags⟩)
    (hmark _) (fun m _ => hmark m) ?_ place
  exact ⟨Drawing.open_settle _ _, fun size entries =>
    (connected_transition root object size entries).settle (some "success")⟩

namespace Artifact

/-- **The charts of contracts and scenarios are connected.** For every object literal and every flow
function, whatever fields their trees lack, there is the chart, it has one start and one finish,
every node is reached from the start, and from every node there is a path to the finish or to an
error. No node but the finish and errors is stuck.

**Proof sketch.** Each way to draw keeps parts connected (`Drawing.hereditary_connected`), since it
draws a part only where control gets to it. -/
theorem connected :
    (∀ (root object : Tree) (id : String),
      ∃ a, ofContract id (.ofObject root object) = .ok a ∧ a.graph.Connected) ∧
      ∀ (names : Names) (function : Tree) (id : String),
        ∃ a, ofScenario id (.ofFunction names function) = .ok a ∧ a.graph.Connected := by
  refine ⟨fun root object id => ?_, fun names function id => ?_⟩
  · set c := Contract.ofObject root object with hc
    obtain ⟨b, hb⟩ := Contract.exists_realizes root object c.guards 1
    obtain ⟨g, hg⟩ := hb.exists_freeze_chart "ok"
    have hdraft : c.draft.freeze = .ok g := by
      rw [Contract.draft, Contract.contract_eq_drawFrom, hg]
    obtain ⟨hopen, hconnected⟩ := Contract.connected_drawFrom root object c.guards 1
    refine ⟨.ofGraph .contract id g, ?_, Drawing.connected_chart hconnected hopen
      (c.settled_drawFrom _ _) (Contract.draws_drawFrom root object _ _)
      (Contract.balanced_drawFrom root object c.guards 1 2 _) hg
      (Contract.disciplined_draft hdraft)⟩
    rw [ofContract, hdraft]
    rfl
  · set s := Scenario.ofFunction names function with hs
    obtain ⟨b, hb⟩ := Scenario.exists_realizes names function
    obtain ⟨g, hg⟩ := hb.exists_freeze_chart "end"
    have hbody : s.body.Connected :=
      Scenario.hereditary_body Drawing.hereditary_connected function
    have hdraws := Scenario.draws_scenario names function
    have hbalanced := Fragment.Balanced.settle none
      (Scenario.balanced_body names function 2 Drawing.beginning)
    rw [← Scenario.drawing_eq] at hbalanced
    refine ⟨.ofGraph .scenario id g, ?_, Drawing.connected_chart ?_ ?_ (Scenario.settled_scenario s)
      (hdraws.mono fun m hm => (Drawing.ne_of_mem_statementKinds hm).1)
      hbalanced hg (Scenario.disciplined_draft hg)⟩
    · rw [ofScenario, Scenario.draft, hg]
      rfl
    · rw [Scenario.drawing_eq]
      exact fun size entries => (hbody size entries).settle none
    · rw [Scenario.drawing_eq]
      exact Drawing.open_settle none s.body

end Artifact

end Flowchart
