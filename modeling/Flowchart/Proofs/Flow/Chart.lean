import Flowchart.Proofs.Flow.Choice

set_option relaxedAutoImplicit false
set_option autoImplicit false

/-!
# Charts

A chart puts a part between its two terminals. If the part realizes a behavior, the chart freezes,
its walks from the start to the finish read the words with which the part goes on, and its walks to
errors read the words with which the part fails. If the chart falls apart at an inner node, the same
holds for the walks from there and the part behind it.

## Main results

* `Flowchart.Drawing.Realizes.exists_freeze_chart`: a chart is a graph.
* `Flowchart.Drawing.Realizes.reads_finish_iff`, `Flowchart.Drawing.Realizes.reads_chart_iff`: the
  words on the way to the finish, from an inner node and from the start.
* `Flowchart.Drawing.Realizes.readsError_iff`, `Flowchart.Drawing.Realizes.readsError_chart_iff`:
  the words on the way to an error.
-/

namespace Flowchart

/-! ## Walks to the finish -/

namespace Walk

variable {shows : String → Option Mark} {edges : List Graph.Edge} {entries : List Entry}
  {last u v : String} {w : Word} {m : Mark}

/-- A walk along links to a node that none of them leaves takes one of them. -/
lemma link_iff (hentries : ∀ x ∈ entries, x.node ≠ last) (hm : shows last = some m) (hw : w ≠ []) :
    Walk shows (link entries last) u w v ↔ ∃ l, ⟨u, l⟩ ∈ entries ∧ w = [(l, m)] ∧ v = last := by
  constructor
  · intro h
    cases h with
    | nil => exact absurd rfl hw
    | @cons _ _ e m' w he hs hm' hrest =>
      obtain ⟨x, hx, rfl⟩ := List.mem_map.mp he
      obtain rfl : x.node = u := hs
      rw [hm, Option.some.injEq] at hm'
      subst hm'
      cases hrest with
      | nil => exact ⟨x.label, hx, rfl, rfl⟩
      | cons he' hs' =>
        obtain ⟨y, hy, rfl⟩ := List.mem_map.mp he'
        exact absurd hs' (hentries y hy)
  · rintro ⟨l, hl, rfl, rfl⟩
    exact single (e := ⟨u, v, l⟩) (List.mem_map.mpr ⟨⟨u, l⟩, hl, rfl⟩) hm

/-- **The way to the finish.** If open ends are linked to a last node and no other edge touches it,
a walk to the last node leads to an open end first. -/
lemma to_last_iff (hsource : ∀ e ∈ edges, e.source ≠ last) (htarget : ∀ e ∈ edges, e.target ≠ last)
    (hentries : ∀ x ∈ entries, x.node ≠ last) (hm : shows last = some m) (hu : u ≠ last) :
    Walk shows (edges ++ link entries last) u w last ↔
      ∃ w' v l, Walk shows edges u w' v ∧ ⟨v, l⟩ ∈ entries ∧ w = w' ++ [(l, m)] := by
  constructor
  · intro h
    rcases h.split (· = last) hsource htarget (fun e he => (mem_link he).2) hu with
      ⟨-, hlast⟩ | ⟨w₁, x, w₂, h₁, -, h₂, hne, -, rfl⟩
    · exact absurd rfl hlast
    · obtain ⟨l, hl, rfl, -⟩ := (link_iff hentries hm hne).mp h₂
      exact ⟨w₁, x, l, h₁, hl, rfl⟩
  · rintro ⟨w', v, l, hw', hl, rfl⟩
    have hlink : (⟨v, last, l⟩ : Graph.Edge) ∈ link entries last :=
      List.mem_map.mpr ⟨⟨v, l⟩, hl, rfl⟩
    exact (hw'.mono (List.subset_append_left _ _)).append
      (single (e := ⟨v, last, l⟩) (List.mem_append_right _ hlink) hm)

/-- A walk to any other node takes no link to the last node. -/
lemma not_last_iff (hsource : ∀ e ∈ edges, e.source ≠ last)
    (htarget : ∀ e ∈ edges, e.target ≠ last) (hu : u ≠ last) (hv : v ≠ last) :
    Walk shows (edges ++ link entries last) u w v ↔ Walk shows edges u w v := by
  refine ⟨fun h => ?_, fun h => h.mono (List.subset_append_left _ _)⟩
  rcases h.split (· = last) hsource htarget (fun e he => (mem_link he).2) hu with
    ⟨h, -⟩ | ⟨-, -, -, -, -, -, -, hlast, -⟩
  · exact h
  · exact absurd hlast hv

end Walk

/-! ## Walks to errors -/

namespace Draft

variable {d : Draft} {g : Graph} {u : String} {w : Word}

/-- A frozen draft shows its marks. -/
lemma shows_freeze (hg : d.freeze = .ok g) : Shows g.mark? 0 d.marks := by
  intro i m hm
  rw [Nat.zero_add]
  exact mark?_freeze hg hm

/-- The nodes of a frozen draft are what shows marks. -/
lemma exists_node_iff (hg : d.freeze = .ok g) {id : String} {kind : NodeKind} :
    (∃ n ∈ g.nodes, n.kind = kind ∧ n.id = id) ↔ ∃ m, g.mark? id = some m ∧ m.kind = kind := by
  constructor
  · rintro ⟨n, hn, rfl, rfl⟩
    rw [(freeze_eq_ok hg).1, mem_nodes_iff] at hn
    obtain ⟨i, m, hm, rfl⟩ := hn
    exact ⟨m, mark?_freeze hg hm, rfl⟩
  · rintro ⟨m, hm, rfl⟩
    obtain ⟨n, hn, rfl⟩ := Option.map_eq_some_iff.mp hm
    have hid := List.find?_some hn
    exact ⟨n, List.mem_reverse.mp (List.mem_of_find?_eq_some hn), rfl, beq_iff_eq.mp hid⟩

/-- The order of the edges of a draft does not count. -/
lemma reads_iff (hg : d.freeze = .ok g) {v : String} :
    g.Reads u w v ↔ Walk g.mark? d.edges u w v :=
  ⟨fun h => h.mono (freeze_eq_ok hg).2.1.subset, fun h => h.mono (freeze_eq_ok hg).2.1.symm.subset⟩

/-- A walk leads to an error if and only if its word ends with one, unless it starts at an error. -/
lemma readsError_iff (hg : d.freeze = .ok g) {m : Mark} (hu : g.mark? u = some m)
    (hm : m.kind ≠ .error) : g.ReadsError u w ↔ w.Fails ∧ ∃ v, g.Reads u w v := by
  constructor
  · rintro ⟨n, hn, hkind, hwalk⟩
    obtain ⟨m', hm', herror⟩ := (exists_node_iff hg).mp ⟨n, hn, hkind, rfl⟩
    refine ⟨hwalk.fails_of_shows hm' herror ?_, n.id, hwalk⟩
    rintro rfl
    obtain rfl : u = n.id := Walk.nil_iff.mp hwalk
    obtain rfl := Option.some.inj (hu.symm.trans hm')
    exact hm herror
  · rintro ⟨hfails, v, hwalk⟩
    obtain ⟨n, hn, hkind, rfl⟩ := (exists_node_iff hg).mpr (hwalk.shows_of_fails hfails)
    exact ⟨n, hn, hkind, hwalk⟩

end Draft

/-! ## Parts between terminals -/

namespace Drawing

/-- The open end behind the start of a chart. -/
def beginning : List Entry :=
  [⟨nodeId 1, none⟩]

/-- The chart of a part has the nodes of the part behind its terminals. -/
lemma marks_chart (finish : String) (part : Drawing) :
    (chart finish part).marks =
      [⟨.start, "start"⟩, ⟨.finish, finish⟩] ++ (part 2 beginning).marks := rfl

/-- The chart of a part has the edges of the part and those to the finish. -/
lemma edges_chart (finish : String) (part : Drawing) :
    (chart finish part).edges =
      (part 2 beginning).edges ++ link (part 2 beginning).continues (nodeId 2) := rfl

/-- The beginning lies before all parts. -/
lemma placed_beginning : ∀ x ∈ beginning, Placed 0 2 x.node := by
  simp [beginning]

namespace Realizes

variable {finish : String} {part front back : Drawing} {b c : Behavior}

/-- **A chart is a graph.** -/
lemma exists_freeze_chart (h : Realizes part b) (finish : String) :
    ∃ g, (chart finish part).freeze = .ok g := by
  have hlocal : (part 2 beginning).Local 2 beginning := h.within 2 beginning
  have hsize : (chart finish part).size = 2 + (part 2 beginning).marks.length := by
    rw [Draft.size, marks_chart, List.length_append]
    rfl
  refine Draft.exists_freeze fun e he => ?_
  rw [Draft.Joins, hsize]
  rcases List.mem_append.mp (edges_chart finish part ▸ he) with he | he
  · exact ⟨hlocal.placed_source placed_beginning e he,
      (hlocal.target e he).mono (Nat.zero_le _) (Nat.le_refl _)⟩
  · obtain ⟨⟨l, hl⟩, htarget⟩ := mem_link he
    refine ⟨hlocal.placed_exits placed_beginning ⟨e.source, l⟩ (List.mem_append_left _ hl), ?_⟩
    rw [htarget, Placed.nodeId_iff]
    omega

/-- No edge of a part in a chart touches the finish, and no open end is there. -/
lemma avoids_finish (h : Realizes part b) :
    (∀ e ∈ (part 2 beginning).edges, e.source ≠ nodeId 2 ∧ e.target ≠ nodeId 2) ∧
      ∀ x ∈ (part 2 beginning).exits, x.node ≠ nodeId 2 := by
  have hlocal : (part 2 beginning).Local 2 beginning := h.within 2 beginning
  have hbeginning : ∀ id, Enters beginning id → id ≠ nodeId 2 := by
    rintro id hid rfl
    have := nodeId_inj.mp (Walk.enters_singleton.mp hid)
    omega
  have hplaced : ∀ id, Placed 2 (2 + (part 2 beginning).marks.length) id → id ≠ nodeId 2 := by
    rintro id hid rfl
    rw [Placed.nodeId_iff] at hid
    omega
  exact ⟨fun e he => ⟨(hlocal.source e he).elim (hbeginning _) (hplaced _),
    hplaced _ (hlocal.target e he)⟩,
    fun x hx => (hlocal.exits x hx).elim (hbeginning _) (hplaced _)⟩

end Realizes

/-! ## Words of charts -/

/-- A part after which a chart falls apart: it is left by one open end, at a node that none of its
own edges leaves. -/
structure Cut (front : Drawing) (u : String) (l : Option String) : Prop where
  exit : (front 2 beginning).continues = [⟨u, l⟩]
  free : ∀ e ∈ (front 2 beginning).edges, e.source ≠ u

/-- The one open end of a part is an exit of the part. -/
lemma Cut.mem_exits {front : Drawing} {u : String} {l : Option String} (h : Cut front u l) :
    ⟨u, l⟩ ∈ (front 2 beginning).exits := by
  rw [Fragment.exits, h.exit]
  exact List.mem_append_left _ (List.mem_singleton.mpr rfl)

/-- The fragment of two parts of which the first has one open end. -/
lemma Cut.andThen_eq {front back : Drawing} {u : String} {l : Option String} (h : Cut front u l)
    {f f' : Fragment} (hf : front 2 beginning = f) (hf' : back (2 + f.marks.length) [⟨u, l⟩] = f') :
    andThen front back 2 beginning =
      ⟨f.marks ++ f'.marks, f.edges ++ f'.edges, f'.continues, f.returns ++ f'.returns⟩ := by
  subst hf hf'
  rw [andThen, h.exit]

/-- Every chart falls apart behind its start. -/
lemma cut_skip : Cut skip (nodeId 1) none :=
  ⟨rfl, fun _ he => absurd he List.not_mem_nil⟩

namespace Realizes

variable {finish : String} {front back : Drawing} {b c : Behavior} {g : Graph} {u v : String}
  {l : Option String} {w : Word}

/-- The walks from the one open end of the first of two parts are those of the second part.

**Proof sketch.** The open end and the nodes of the second part are a region in which only edges of
the second part start. -/
lemma walk_behind_iff (hfront : Realizes front b) (hback : Realizes back c) (hcut : Cut front u l)
    {shows : String → Option Mark} :
    Walk shows (Drawing.andThen front back 2 beginning).edges u w v ↔
      Walk shows (back (2 + (front 2 beginning).marks.length) [⟨u, l⟩]).edges u w v := by
  set f := front 2 beginning with hf
  set f' := back (2 + f.marks.length) [⟨u, l⟩] with hf'
  have hfl : f.Local 2 beginning := hfront.within 2 beginning
  have hfl' : f'.Local (2 + f.marks.length) [⟨u, l⟩] := hback.within _ _
  rw [hcut.andThen_eq hf.symm hf'.symm]
  refine ⟨fun h => ?_, fun h => h.mono (List.subset_append_right _ _)⟩
  refine (h.stay (fun id => id = u ∨ Placed (2 + f.marks.length)
    (2 + f.marks.length + f'.marks.length) id) (fun e he hregion => ?_) (.inl rfl)).1
  rcases List.mem_append.mp he with he | he
  · rcases hregion with hregion | hregion
    · exact absurd hregion (hcut.free e he)
    · exact ((hfl.placed_source placed_beginning e he).disjoint hregion (Nat.le_refl _)).elim
  · exact ⟨he, .inr (hfl'.target e he)⟩

/-- The second of two parts in a chart shows its marks. -/
lemma shows_behind (hg : (chart finish (Drawing.andThen front back)).freeze = .ok g)
    (hcut : Cut front u l) :
    Shows g.mark? (2 + (front 2 beginning).marks.length)
      (back (2 + (front 2 beginning).marks.length) [⟨u, l⟩]).marks := by
  have hshows := Draft.shows_freeze hg
  rw [marks_chart, hcut.andThen_eq rfl rfl] at hshows
  have hbehind := hshows.right.right
  rwa [Nat.zero_add] at hbehind

/-- The behavior of the second part are its walks from the open end of the first one. -/
lemma behind_iff (hfront : Realizes front b) (hback : Realizes back c)
    (hg : (chart finish (Drawing.andThen front back)).freeze = .ok g) (hcut : Cut front u l)
    (k : Completion) :
    c l w k ↔ ∃ v, Walk g.mark? (Drawing.andThen front back 2 beginning).edges u w v ∧
      (back (2 + (front 2 beginning).marks.length) [⟨u, l⟩]).EndsAt v w k := by
  have hu : Placed 0 (2 + (front 2 beginning).marks.length) u :=
    (hfront.within 2 beginning).placed_exits placed_beginning ⟨u, l⟩ hcut.mem_exits
  rw [hback.single_iff hu (shows_behind hg hcut)]
  simp only [walk_behind_iff hfront hback hcut, Fragment.Ends]

/-- **The words on the way to the finish** are those with which the part behind goes on. -/
theorem reads_finish_iff (hfront : Realizes front b) (hback : Realizes back c)
    (hlive : front.Open ∨ back.Idle)
    (hg : (chart finish (Drawing.andThen front back)).freeze = .ok g) (hcut : Cut front u l) :
    g.Reads u w (nodeId 2) ↔
      ∃ v m, c l v (.goesOn m) ∧ w = v ++ [(m, ⟨.finish, finish⟩)] := by
  set part := Drawing.andThen front back with hpart
  obtain ⟨hedges, hexits⟩ := (hfront.andThen hback hlive).avoids_finish
  have hu : u ≠ nodeId 2 := hfront.avoids_finish.2 ⟨u, l⟩ hcut.mem_exits
  have hlast : g.mark? (nodeId 2) = some ⟨.finish, finish⟩ := Draft.mark?_freeze hg rfl
  have hcontinues : (part 2 beginning).continues =
      (back (2 + (front 2 beginning).marks.length) [⟨u, l⟩]).continues := by
    rw [hpart, hcut.andThen_eq rfl rfl]
  rw [Draft.reads_iff hg, edges_chart, Walk.to_last_iff (fun e he => (hedges e he).1)
    (fun e he => (hedges e he).2) (fun x hx => hexits x (List.mem_append_left _ hx)) hlast hu]
  constructor
  · rintro ⟨v, x, m, hwalk, hx, rfl⟩
    rw [hcontinues] at hx
    exact ⟨v, m, (behind_iff hfront hback hg hcut _).mpr ⟨x, hwalk, hx⟩, rfl⟩
  · rintro ⟨v, m, hc, rfl⟩
    obtain ⟨x, hwalk, hx⟩ := (behind_iff hfront hback hg hcut _).mp hc
    exact ⟨v, x, m, hwalk, hcontinues.symm ▸ hx, rfl⟩

/-- **The words on the way to an error** are those with which the part behind fails. -/
theorem readsError_iff (hfront : Realizes front b) (hback : Realizes back c)
    (hlive : front.Open ∨ back.Idle)
    (hg : (chart finish (Drawing.andThen front back)).freeze = .ok g) (hcut : Cut front u l)
    {m : Mark} (hm : g.mark? u = some m) (hkind : m.kind ≠ .error) :
    g.ReadsError u w ↔ c l w .fails := by
  obtain ⟨hedges, -⟩ := (hfront.andThen hback hlive).avoids_finish
  have hu : u ≠ nodeId 2 := hfront.avoids_finish.2 ⟨u, l⟩ hcut.mem_exits
  have hlast : g.mark? (nodeId 2) = some ⟨.finish, finish⟩ := Draft.mark?_freeze hg rfl
  -- the finish shows no error
  have hother : ∀ {edges v}, Walk g.mark? edges u w v → w.Fails → v ≠ nodeId 2 := by
    rintro edges v hwalk hfails rfl
    obtain ⟨m, hm, hkind⟩ := hwalk.shows_of_fails hfails
    obtain rfl := Option.some.inj (hlast.symm.trans hm)
    cases hkind
  have hreads : ∀ {v}, v ≠ nodeId 2 → (g.Reads u w v ↔
      Walk g.mark? (Drawing.andThen front back 2 beginning).edges u w v) := fun hv => by
    rw [Draft.reads_iff hg, edges_chart, Walk.not_last_iff (fun e he => (hedges e he).1)
      (fun e he => (hedges e he).2) hu hv]
  rw [Draft.readsError_iff hg hm hkind, behind_iff hfront hback hg hcut]
  constructor
  · rintro ⟨hfails, v, hwalk⟩
    exact ⟨v, (hreads (hother hwalk hfails)).mp hwalk, hfails⟩
  · rintro ⟨v, hwalk, hfails⟩
    exact ⟨hfails, v, (hreads (hother hwalk hfails)).mpr hwalk⟩

/-- **The words between the terminals** of a chart are those with which its part goes on. -/
theorem reads_chart_iff (h : Realizes back c) (hg : (chart finish back).freeze = .ok g) :
    g.Reads (nodeId 1) w (nodeId 2) ↔
      ∃ v m, c none v (.goesOn m) ∧ w = v ++ [(m, ⟨.finish, finish⟩)] := by
  rw [← skip_andThen back] at hg
  exact Realizes.skip.reads_finish_iff h (.inl open_skip) hg cut_skip

/-- **The words from the start to errors** of a chart are those with which its part fails. -/
theorem readsError_chart_iff (h : Realizes back c) (hg : (chart finish back).freeze = .ok g) :
    g.ReadsError (nodeId 1) w ↔ c none w .fails := by
  have hstart : g.mark? (nodeId 1) = some ⟨.start, "start"⟩ := Draft.mark?_freeze hg rfl
  rw [← skip_andThen back] at hg
  exact Realizes.skip.readsError_iff h (.inl open_skip) hg cut_skip hstart (by simp)

end Realizes

end Drawing

end Flowchart
