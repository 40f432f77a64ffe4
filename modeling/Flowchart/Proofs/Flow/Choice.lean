import Flowchart.Proofs.Flow.Sequence

set_option relaxedAutoImplicit false
set_option autoImplicit false

/-!
# Choices and loops

A choice realizes the runs of either side, and a loop realizes any number of runs of its body. All
of them start with a node, and the parts behind the node are entered there and nowhere else.

## Main results

* `Flowchart.Drawing.Realizes.branch`: a choice between two parts.
* `Flowchart.Drawing.Realizes.loop`: a loop over a part.
-/

namespace Flowchart

namespace Walk

variable {shows : String → Option Mark} {f g : Fragment} {low mid size : ℕ} {u v : String}
  {l m : Option String} {w : Word}

/-! ## Two parts behind one node -/

/-- An open end at one node is at that node. -/
lemma enters_singleton {u id : String} {l : Option String} : Enters [⟨u, l⟩] id ↔ id = u := by
  constructor
  · rintro ⟨l', hl'⟩
    exact (Entry.mk.inj (List.mem_singleton.mp hl')).1
  · rintro rfl
    exact ⟨l, List.mem_singleton.mpr rfl⟩

/-- **A fork.** A walk from a node at which two parts are entered goes through one of them.

**Proof sketch.** The first edge leads into one of the two parts, and no edge of the other part
starts there. -/
lemma fork_iff (hf : f.Local low [⟨u, l⟩]) (hg : g.Local (low + f.marks.length) [⟨u, m⟩])
    (hu : Placed 0 low u) :
    Walk shows (f.edges ++ g.edges) u w v ↔
      Walk shows f.edges u w v ∨ Walk shows g.edges u w v := by
  -- inside one part no edge of the other starts
  have hfstay : ∀ e ∈ f.edges ++ g.edges, Placed low (low + f.marks.length) e.source →
      e ∈ f.edges ∧ Placed low (low + f.marks.length) e.target := by
    intro e he hin
    rcases List.mem_append.mp he with he | he
    · exact ⟨he, hf.target e he⟩
    · rcases hg.source e he with h | h
      · rw [enters_singleton.mp h] at hin
        exact (hu.disjoint hin (Nat.le_refl _)).elim
      · exact (hin.disjoint h (Nat.le_refl _)).elim
  have hgstay : ∀ e ∈ f.edges ++ g.edges,
      Placed (low + f.marks.length) (low + f.marks.length + g.marks.length) e.source →
      e ∈ g.edges ∧
        Placed (low + f.marks.length) (low + f.marks.length + g.marks.length) e.target := by
    intro e he hin
    rcases List.mem_append.mp he with he | he
    · rcases hf.source e he with h | h
      · rw [enters_singleton.mp h] at hin
        exact (hu.disjoint hin (by omega)).elim
      · exact (h.disjoint hin (Nat.le_refl _)).elim
    · exact ⟨he, hg.target e he⟩
  constructor
  · intro h
    cases h with
    | nil => exact .inl (.nil u)
    | cons he hs hm hw =>
      rcases List.mem_append.mp he with he | he
      · exact .inl (.cons he hs hm (stay _ hfstay hw (hf.target _ he)).1)
      · exact .inr (.cons he hs hm (stay _ hgstay hw (hg.target _ he)).1)
  · rintro (h | h)
    · exact h.mono (List.subset_append_left _ _)
    · exact h.mono (List.subset_append_right _ _)

/-- A walk through one part of a fork to an open end of the other part takes no edge, so it is a
walk through the other part as well. -/
lemma of_other_part {low' : ℕ} (hf : f.Local low [⟨u, l⟩]) (hg : g.Local low' [⟨u, m⟩])
    (hu : Placed 0 low' u)
    (hapart : low + f.marks.length ≤ low' ∨ low' + g.marks.length ≤ low)
    (hw : Walk shows g.edges u w v) (hexit : Enters f.exits v) : Walk shows f.edges u w v := by
  rcases hg.walk_end hw with ⟨rfl, rfl⟩ | hv
  · exact .nil u
  · obtain ⟨k, hk⟩ := hexit
    rcases hf.exits _ hk with h | h
    · obtain rfl := enters_singleton.mp h
      exact (hu.disjoint hv (Nat.le_refl _)).elim
    · rcases hapart with hle | hle
      · exact (h.disjoint hv hle).elim
      · exact (hv.disjoint h hle).elim

/-- **The ends of a fork** are the ends of its parts. -/
lemma fork_ends_iff (hf : f.Local low [⟨u, l⟩]) (hg : g.Local (low + f.marks.length) [⟨u, m⟩])
    (hu : Placed 0 low u) (k : Completion) :
    (∃ v, Walk shows (f.edges ++ g.edges) u w v ∧ (f.EndsAt v w k ∨ g.EndsAt v w k)) ↔
      f.Ends shows u w k ∨ g.Ends shows u w k := by
  have hu' : Placed 0 (low + f.marks.length) u := hu.mono (Nat.le_refl _) (by omega)
  constructor
  · rintro ⟨v, hw, hk⟩
    have hparts := (fork_iff hf hg hu).mp hw
    have hleft : Enters f.exits v → Walk shows f.edges u w v := fun hexit =>
      hparts.elim id fun hw => of_other_part hf hg hu' (.inl (Nat.le_refl _)) hw hexit
    have hright : Enters g.exits v → Walk shows g.edges u w v := fun hexit =>
      hparts.elim (fun hw => of_other_part hg hf hu (.inr (Nat.le_refl _)) hw hexit) id
    cases k with
    | goesOn n =>
      exact hk.imp (fun hk => ⟨v, hleft ⟨n, List.mem_append_left _ hk⟩, hk⟩)
        fun hk => ⟨v, hright ⟨n, List.mem_append_left _ hk⟩, hk⟩
    | returns n =>
      exact hk.imp (fun hk => ⟨v, hleft ⟨n, List.mem_append_right _ hk⟩, hk⟩)
        fun hk => ⟨v, hright ⟨n, List.mem_append_right _ hk⟩, hk⟩
    | fails =>
      have hfails : w.Fails := hk.elim id id
      exact hparts.imp (fun hw => ⟨v, hw, hfails⟩) fun hw => ⟨v, hw, hfails⟩
  · rintro (⟨v, hw, hk⟩ | ⟨v, hw, hk⟩)
    · exact ⟨v, (fork_iff hf hg hu).mpr (.inl hw), .inl hk⟩
    · exact ⟨v, (fork_iff hf hg hu).mpr (.inr hw), .inr hk⟩

/-! ## Rounds -/

/-- The mark and the way back of a loop at the node `u`. -/
lemma mem_backEdges {entries : List Entry} {e : Graph.Edge} :
    e ∈ Drawing.backEdges entries u ↔
      ∃ v l, ⟨v, l⟩ ∈ entries ∧ e = ⟨v, u, some (l.getD "next")⟩ := by
  rw [Drawing.backEdges, List.mem_map]
  constructor
  · rintro ⟨x, hx, rfl⟩
    exact ⟨x.node, x.label, hx, rfl⟩
  · rintro ⟨v, l, hl, rfl⟩
    exact ⟨⟨v, l⟩, hl, rfl⟩

/-- A walk through the body of a loop stays in the body or goes back to the loop at a first time. -/
lemma first_back {entries : List Entry} {edges : List Graph.Edge} {head : Mark} {start x : String}
    (hhead : shows u = some head)
    (h : Walk shows (edges ++ Drawing.backEdges entries u) start w x) :
    Walk shows edges start w x ∨
      ∃ w₁ v l w₂, ⟨v, l⟩ ∈ entries ∧ Walk shows edges start w₁ v ∧
        Walk shows (edges ++ Drawing.backEdges entries u) u w₂ x ∧
        w = Behavior.lap head (w₁, l) ++ w₂ := by
  induction h with
  | nil => exact .inl (.nil _)
  | @cons start x e mark w he hs hm hw ih =>
    rcases List.mem_append.mp he with he | he
    · rcases ih with hbody | ⟨w₁, v, l, w₂, hl, h₁, h₂, rfl⟩
      · exact .inl (.cons he hs hm hbody)
      · exact .inr ⟨(e.label, mark) :: w₁, v, l, w₂, hl, .cons he hs hm h₁, h₂, rfl⟩
    · obtain ⟨v, l, hl, rfl⟩ := mem_backEdges.mp he
      obtain rfl : v = start := hs
      rw [hhead, Option.some.injEq] at hm
      subst hm
      exact .inr ⟨[], v, l, w, hl, .nil v, hw, rfl⟩

/-- **The rounds of a loop.** A walk from a loop through its body falls into rounds, each of which
leads through the body and back to the loop, and a last walk in the body.

**Proof sketch.** Induction on the length of the word, which shrinks with each way back
(`first_back`). -/
lemma rounds_iff {entries : List Entry} {edges : List Graph.Edge} {head : Mark} {x : String}
    (hhead : shows u = some head) :
    Walk shows (edges ++ Drawing.backEdges entries u) u w x ↔
      ∃ rounds : List (Word × Option String),
        (∀ r ∈ rounds, ∃ v, ⟨v, r.2⟩ ∈ entries ∧ Walk shows edges u r.1 v) ∧
        ∃ w', Walk shows edges u w' x ∧ w = rounds.flatMap (Behavior.lap head) ++ w' := by
  constructor
  · intro h
    induction hn : w.length using Nat.strongRecOn generalizing w with
    | ind n ih =>
      rcases first_back hhead h with hbody | ⟨w₁, v, l, w₂, hl, h₁, h₂, rfl⟩
      · exact ⟨[], by simp, w, hbody, rfl⟩
      · have hlt : w₂.length < n := by
          rw [← hn, List.length_append]
          simp [Behavior.lap]
        obtain ⟨rounds, hrounds, w', hw', rfl⟩ := ih w₂.length hlt h₂ rfl
        refine ⟨(w₁, l) :: rounds, List.forall_mem_cons.mpr ⟨⟨v, hl, h₁⟩, hrounds⟩, w', hw', ?_⟩
        rw [List.flatMap_cons, List.append_assoc]
  · rintro ⟨rounds, hrounds, w', hw', rfl⟩
    induction rounds with
    | nil => exact hw'.mono (List.subset_append_left _ _)
    | cons r rounds ih =>
      obtain ⟨⟨v, hv, hr⟩, hrest⟩ := List.forall_mem_cons.mp hrounds
      have hback : (⟨v, u, some (r.2.getD "next")⟩ : Graph.Edge) ∈ Drawing.backEdges entries u :=
        mem_backEdges.mpr ⟨v, r.2, hv, rfl⟩
      have hlap : Walk shows (edges ++ Drawing.backEdges entries u) u (Behavior.lap head r) u :=
        (hr.mono (List.subset_append_left _ _)).append
          (single (e := ⟨v, u, _⟩) (List.mem_append_right _ hback) hhead)
      rw [List.flatMap_cons, List.append_assoc]
      exact hlap.append (ih hrest)

end Walk

/-! ## Parts behind a node -/

/-- The edges and ends of a part that is entered at a node stay in the places from that node on. -/
lemma Fragment.Local.behind {f : Fragment} {low high size : ℕ} {l : Option String}
    (h : f.Local low [⟨nodeId (size + 1), l⟩]) (hlow : size + 1 ≤ low)
    (hhigh : low + f.marks.length ≤ high) :
    (∀ e ∈ f.edges, Placed size high e.source ∧ Placed size high e.target) ∧
      ∀ x ∈ f.exits, Placed size high x.node := by
  have hnode : Placed size high (nodeId (size + 1)) := by
    rw [Placed.nodeId_iff]
    omega
  have hinside : ∀ id, Enters [⟨nodeId (size + 1), l⟩] id ∨ Placed low (low + f.marks.length) id →
      Placed size high id := by
    rintro id (h | h)
    · rw [Walk.enters_singleton.mp h]
      exact hnode
    · exact h.mono (by omega) hhigh
  exact ⟨fun e he => ⟨hinside _ (h.source e he), hinside _ (.inr (h.target e he))⟩,
    fun x hx => hinside _ (h.exits x hx)⟩

/-- A place behind others is none of them. -/
lemma Placed.not_old {size high : ℕ} {id : String} (h : Placed size high id) : ¬ Placed 0 size id :=
  fun hold => hold.disjoint h (Nat.le_refl _)

/-- A letter that is no error may be put in front of a word. -/
lemma Fragment.endsAt_cons {f : Fragment} {v : String} {l : Option String} {m : Mark} {w : Word}
    {k : Completion} (hm : m.kind ≠ .error) : f.EndsAt v ((l, m) :: w) k ↔ f.EndsAt v w k := by
  cases k with
  | goesOn n => exact Iff.rfl
  | returns n => exact Iff.rfl
  | fails => exact Word.fails_cons hm

namespace Drawing.Realizes

variable {part whenTrue whenFalse : Drawing} {b c : Behavior}

/-- The behavior of a part that is entered at a single open end. -/
lemma single_iff (h : Realizes part b) {shows : String → Option Mark} {size : ℕ} {u : String}
    {l : Option String} (hu : Placed 0 size u)
    (hshows : Shows shows size (part size [⟨u, l⟩]).marks) (w : Word) (k : Completion) :
    b l w k ↔ (part size [⟨u, l⟩]).Ends shows u w k := by
  have hentries : ∀ x ∈ [(⟨u, l⟩ : Entry)], Placed 0 size x.node := by
    simpa using hu
  rw [← h.ends_iff hentries hshows ⟨l, List.mem_singleton.mpr rfl⟩]
  constructor
  · intro hb
    exact ⟨l, List.mem_singleton.mpr rfl, hb⟩
  · rintro ⟨l', hl', hb⟩
    obtain ⟨-, rfl⟩ := Entry.mk.inj (List.mem_singleton.mp hl')
    exact hb

/-! ## Choices -/

/-- The fragment of a choice is local. -/
lemma within_branch (ht : Realizes whenTrue b) (hf : Realizes whenFalse c) (label : String)
    (size : ℕ) (entries : List Entry) :
    (Drawing.branch label whenTrue whenFalse size entries).Local size entries := by
  set f := whenTrue (size + 1) [⟨nodeId (size + 1), some "true"⟩] with hfdef
  set g := whenFalse (size + 1 + f.marks.length) [⟨nodeId (size + 1), some "false"⟩] with hgdef
  set whole := Drawing.branch label whenTrue whenFalse size entries with hwhole
  have hlength : whole.marks.length = 1 + f.marks.length + g.marks.length := by
    simp only [hwhole, Drawing.branch, ← hfdef, ← hgdef, List.length_cons, List.length_append]
    omega
  obtain ⟨hfedges, hfexits⟩ := (ht.within (size + 1) _).behind (Nat.le_refl _)
    (show size + 1 + f.marks.length ≤ size + whole.marks.length by omega)
  obtain ⟨hgedges, hgexits⟩ := (hf.within (size + 1 + f.marks.length) _).behind (by omega)
    (show size + 1 + f.marks.length + g.marks.length ≤ size + whole.marks.length by omega)
  have hedges : ∀ e ∈ whole.edges, e ∈ link entries (nodeId (size + 1)) ∨ e ∈ f.edges ∨
      e ∈ g.edges := by
    intro e he
    simpa [hwhole, Drawing.branch, ← hfdef, ← hgdef, or_assoc] using he
  refine ⟨fun e he => ?_, fun e he => ?_, fun x hx => ?_⟩
  · rcases hedges e he with he | he | he
    · exact .inl (mem_link he).1
    · exact .inr (hfedges e he).1
    · exact .inr (hgedges e he).1
  · rcases hedges e he with he | he | he
    · rw [(mem_link he).2, Placed.nodeId_iff]
      omega
    · exact (hfedges e he).2
    · exact (hgedges e he).2
  · have hexits : x ∈ f.exits ∨ x ∈ g.exits := by
      simp only [hwhole, Drawing.branch, ← hfdef, ← hgdef, Fragment.exits, List.mem_append] at hx ⊢
      tauto
    exact .inr (hexits.elim (hfexits x) (hgexits x))

/-- **A choice between two parts** realizes a choice between their behaviors. -/
lemma branch (ht : Realizes whenTrue b) (hf : Realizes whenFalse c) (label : String) :
    Realizes (Drawing.branch label whenTrue whenFalse) (Behavior.branch label b c) where
  within := ht.within_branch hf label
  ends_iff := by
    intro shows size entries hentries hshows u hu w k
    set f := whenTrue (size + 1) [⟨nodeId (size + 1), some "true"⟩] with hfdef
    set g := whenFalse (size + 1 + f.marks.length) [⟨nodeId (size + 1), some "false"⟩] with hgdef
    have hfl : f.Local (size + 1) [⟨nodeId (size + 1), some "true"⟩] := ht.within _ _
    have hgl : g.Local (size + 1 + f.marks.length) [⟨nodeId (size + 1), some "false"⟩] :=
      hf.within _ _
    have hnode : Placed 0 (size + 1) (nodeId (size + 1)) := by simp
    have hnode' : Placed 0 (size + 1 + f.marks.length) (nodeId (size + 1)) :=
      hnode.mono (Nat.le_refl _) (by omega)
    have hftrue := fun w => ht.single_iff hnode hshows.tail.left w k
    have hgfalse := fun w => hf.single_iff hnode' hshows.tail.right w k
    obtain ⟨hfedges, hfexits⟩ := hfl.behind (Nat.le_refl _) (Nat.le_refl _)
    obtain ⟨hgedges, hgexits⟩ := hgl.behind (by omega) (Nat.le_refl _)
    have hends : ∀ v w, (Drawing.branch label whenTrue whenFalse size entries).EndsAt v w k ↔
        f.EndsAt v w k ∨ g.EndsAt v w k := by
      intro v w
      cases k with
      | goesOn m => exact List.mem_append
      | returns m => exact List.mem_append
      | fails => exact (or_self_iff).symm
    have hkind : (⟨.decision, label⟩ : Mark).kind ≠ .error := by simp
    rw [Fragment.ends_enter_iff (f.edges ++ g.edges) (List.append_assoc _ _ _) hentries
      (fun e he => (List.mem_append.mp he).elim (fun h => (hfedges e h).1.not_old)
        fun h => (hgedges e h).1.not_old)
      (fun e he => (List.mem_append.mp he).elim (fun h => (hfedges e h).2.not_old)
        fun h => (hgedges e h).2.not_old)
      (fun x hx => ?_) hshows.head hu]
    · constructor
      · rintro ⟨l, hl, w', rfl, hbc⟩
        obtain ⟨v, hw, hk⟩ := (Walk.fork_ends_iff hfl hgl hnode k).mpr
          (hbc.imp (hftrue w').mp (hgfalse w').mp)
        exact ⟨l, w', v, hl, rfl, hw, (Fragment.endsAt_cons hkind).mpr ((hends v w').mpr hk)⟩
      · rintro ⟨l, w', v, hl, rfl, hw, hk⟩
        have hparts := (Walk.fork_ends_iff hfl hgl hnode k).mp
          ⟨v, hw, (hends v w').mp ((Fragment.endsAt_cons hkind).mp hk)⟩
        exact ⟨l, hl, w', rfl, hparts.imp (hftrue w').mpr (hgfalse w').mpr⟩
    · have hexits : x ∈ f.exits ∨ x ∈ g.exits := by
        simp only [Drawing.branch, ← hfdef, ← hgdef, Fragment.exits, List.mem_append] at hx ⊢
        tauto
      exact hexits.elim (fun h => (hfexits x h).not_old) fun h => (hgexits x h).not_old
  goesOn := by
    intro size entries _ hends l
    by_cases hnil : (whenTrue (size + 1) [⟨nodeId (size + 1), some "true"⟩]).continues = []
    · obtain ⟨w, m, hc⟩ := hf.goesOn (List.cons_ne_nil _ _)
        (by simpa [Drawing.branch, hnil] using hends) (some "false")
      exact ⟨_, m, w, rfl, .inr hc⟩
    · obtain ⟨w, m, hb⟩ := ht.goesOn (List.cons_ne_nil _ _) hnil (some "true")
      exact ⟨_, m, w, rfl, .inl hb⟩
  returns := by
    intro size entries _ hends l
    by_cases hnil : (whenTrue (size + 1) [⟨nodeId (size + 1), some "true"⟩]).returns = []
    · obtain ⟨w, m, hc⟩ := hf.returns (List.cons_ne_nil _ _)
        (by simpa [Drawing.branch, hnil] using hends) (some "false")
      exact ⟨_, m, w, rfl, .inr hc⟩
    · obtain ⟨w, m, hb⟩ := ht.returns (List.cons_ne_nil _ _) hnil (some "true")
      exact ⟨_, m, w, rfl, .inl hb⟩

/-! ## Loops -/

/-- Rounds that lead back to a node that is no error do not end in one. -/
lemma fails_rounds_iff {head : Mark} (hhead : head.kind ≠ .error)
    (rounds : List (Word × Option String)) (w : Word) :
    Word.Fails (rounds.flatMap (Behavior.lap head) ++ w) ↔ w.Fails := by
  by_cases hnil : w = []
  · subst hnil
    rw [List.append_nil]
    refine iff_of_false ?_ Word.not_fails_nil
    rcases List.eq_nil_or_concat rounds with rfl | ⟨init, r, rfl⟩
    · exact Word.not_fails_nil
    · rw [List.concat_eq_append, List.flatMap_append, List.flatMap_singleton, Behavior.lap,
        ← List.append_assoc, Word.fails_append (List.cons_ne_nil _ _), Word.fails_singleton]
      exact hhead
  · exact Word.fails_append hnil

/-- The edges of a loop behind its node stay in the places from that node on. -/
lemma placed_loop (h : Realizes part b) (size : ℕ) :
    let f := part (size + 1) [⟨nodeId (size + 1), some "iterate"⟩]
    ∀ e ∈ f.edges ++ Drawing.backEdges f.continues (nodeId (size + 1)),
      Placed size (size + 1 + f.marks.length) e.source ∧
        Placed size (size + 1 + f.marks.length) e.target := by
  intro f e he
  obtain ⟨hedges, hexits⟩ := (h.within (size + 1) _).behind (Nat.le_refl _) (Nat.le_refl _)
  rcases List.mem_append.mp he with he | he
  · exact hedges e he
  · obtain ⟨v, l, hl, rfl⟩ := Walk.mem_backEdges.mp he
    refine ⟨hexits _ (List.mem_append_left _ hl), ?_⟩
    rw [Placed.nodeId_iff]
    omega

/-- The fragment of a loop is local. -/
lemma within_loop (h : Realizes part b) (label : String) (size : ℕ) (entries : List Entry) :
    (Drawing.loop label part size entries).Local size entries := by
  set f := part (size + 1) [⟨nodeId (size + 1), some "iterate"⟩] with hf
  have hbody := h.placed_loop size
  obtain ⟨-, hexits⟩ := (h.within (size + 1) [⟨nodeId (size + 1), some "iterate"⟩]).behind
    (Nat.le_refl _) (Nat.le_refl _)
  have hlength : size + (Drawing.loop label part size entries).marks.length =
      size + 1 + f.marks.length := by
    simp only [Drawing.loop, ← hf, List.length_cons]
    omega
  have hnode : Placed size (size + 1 + f.marks.length) (nodeId (size + 1)) := by
    rw [Placed.nodeId_iff]
    omega
  rw [← hf] at hexits
  refine ⟨fun e he => ?_, fun e he => ?_, fun x hx => .inr ?_⟩
  · rw [hlength]
    rw [Drawing.loop, List.append_assoc] at he
    rcases List.mem_append.mp he with he | he
    · exact .inl (mem_link he).1
    · exact .inr (hbody e he).1
  · rw [hlength]
    rw [Drawing.loop, List.append_assoc] at he
    rcases List.mem_append.mp he with he | he
    · rw [(mem_link he).2]
      exact hnode
    · exact (hbody e he).2
  · rw [hlength]
    rcases List.mem_append.mp hx with hx | hx
    · obtain rfl := List.mem_singleton.mp hx
      exact hnode
    · exact hexits x (List.mem_append_right _ hx)

/-- **A loop over a part** realizes a loop over its behavior.

**Proof sketch.** A walk from the loop through its body falls into rounds and a last walk in the
body (`Walk.rounds_iff`). The rounds are runs of the body that go on. The last walk either takes no
edge, and then control goes on from the loop, or it is a run of the body that ends otherwise. -/
lemma loop (h : Realizes part b) (label : String) :
    Realizes (Drawing.loop label part) (Behavior.loop label b) where
  within := h.within_loop label
  ends_iff := by
    intro shows size entries hentries hshows u hu w k
    set top := nodeId (size + 1) with htop
    set f := part (size + 1) [⟨top, some "iterate"⟩] with hf
    set head : Mark := ⟨.loop, label⟩ with hhead
    have hkind : head.kind ≠ .error := by simp [hhead]
    have hfl : f.Local (size + 1) [⟨top, some "iterate"⟩] := h.within _ _
    have hnode : Placed 0 (size + 1) top := by simp [htop]
    have hbody := fun w k => h.single_iff hnode hshows.tail w k
    have hround : ∀ r : Word × Option String, b (some "iterate") r.1 (.goesOn r.2) ↔
        ∃ v, ⟨v, r.2⟩ ∈ f.continues ∧ Walk shows f.edges top r.1 v := fun r =>
      (hbody r.1 (.goesOn r.2)).trans
        ⟨fun ⟨v, hw, hv⟩ => ⟨v, hv, hw⟩, fun ⟨v, hv, hw⟩ => ⟨v, hw, hv⟩⟩
    have hedges := h.placed_loop size
    obtain ⟨-, hexits⟩ := hfl.behind (Nat.le_refl _) (Nat.le_refl _)
    rw [Fragment.ends_enter_iff (f.edges ++ Drawing.backEdges f.continues top)
      (List.append_assoc _ _ _) hentries (fun e he => (hedges e he).1.not_old)
      (fun e he => (hedges e he).2.not_old) (fun x hx => ?_) hshows.head hu]
    · constructor
      · rintro ⟨l, hl, rounds, hrounds, v, rfl, hlast⟩
        have hwalks := fun r hr => (hround r).mp (hrounds r hr)
        rcases hlast with ⟨rfl, rfl⟩ | ⟨hb, hfinal⟩
        · exact ⟨l, _, top, hl, rfl,
            (Walk.rounds_iff hshows.head).mpr ⟨rounds, hwalks, [], .nil top, rfl⟩,
            List.mem_singleton.mpr rfl⟩
        · obtain ⟨x, hx, hk⟩ := (hbody v k).mp hb
          refine ⟨l, _, x, hl, rfl,
            (Walk.rounds_iff hshows.head).mpr ⟨rounds, hwalks, v, hx, rfl⟩, ?_⟩
          cases k with
          | goesOn m => exact absurd hfinal id
          | returns m => exact hk
          | fails => exact (Word.fails_cons hkind).mpr ((fails_rounds_iff hkind rounds v).mpr hk)
      · rintro ⟨l, w', x, hl, rfl, hw, hk⟩
        obtain ⟨rounds, hwalks, last, hlast, rfl⟩ := (Walk.rounds_iff hshows.head).mp hw
        refine ⟨l, hl, rounds, fun r hr => (hround r).mpr (hwalks r hr), last, rfl, ?_⟩
        cases k with
        | goesOn m =>
          obtain ⟨rfl, rfl⟩ := Entry.mk.inj (List.mem_singleton.mp hk)
          rcases hfl.walk_end hlast with ⟨rfl, -⟩ | hnew
          · exact .inl ⟨rfl, rfl⟩
          · exact (hnode.disjoint hnew (Nat.le_refl _)).elim
        | returns m => exact .inr ⟨(hbody last _).mpr ⟨x, hlast, hk⟩, trivial⟩
        | fails =>
          have hfails := (fails_rounds_iff hkind rounds last).mp ((Word.fails_cons hkind).mp hk)
          exact .inr ⟨(hbody last .fails).mpr ⟨x, hlast, hfails⟩, trivial⟩
    · rcases List.mem_append.mp hx with hx | hx
      · obtain rfl := List.mem_singleton.mp hx
        rw [Placed.nodeId_iff]
        omega
      · exact (hexits x (List.mem_append_right _ hx)).not_old
  goesOn := fun _ _ l => ⟨[(l, ⟨.loop, label⟩)], some "done", [], by simp, [], rfl, .inl ⟨rfl, rfl⟩⟩
  returns := by
    intro size entries _ hends l
    obtain ⟨w, m, hb⟩ := h.returns (List.cons_ne_nil _ _) hends (some "iterate")
    exact ⟨_, m, [], by simp, w, rfl, .inr ⟨hb, trivial⟩⟩

end Drawing.Realizes

end Flowchart
