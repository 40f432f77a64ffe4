import Flowchart.Proofs.Flow.Realization

set_option relaxedAutoImplicit false
set_option autoImplicit false

/-!
# Parts in a row

Parts that are drawn one behind the other realize behaviors one behind the other: a walk through
both leaves the first at one of its open ends and stays in the second from then on. Parts whose ends
are turned into returns, or whose returns are turned into ends, keep their walks.

## Main results

* `Flowchart.Drawing.Realizes.andThen`: two parts in a row.
* `Flowchart.Drawing.Realizes.chain`: a row of nodes.
* `Flowchart.Drawing.Realizes.leaving`, `Flowchart.Drawing.Realizes.settle`: parts whose ends are
  renamed.
-/

namespace Flowchart

/-! ## Ends of walks -/

namespace Walk

variable {shows : String → Option Mark} {edges : List Graph.Edge} {u v : String} {w : Word}

/-- A walk that reads something takes a first edge. -/
lemma exists_source (h : Walk shows edges u w v) (hw : w ≠ []) : ∃ e ∈ edges, e.source = u := by
  cases h with
  | nil => exact absurd rfl hw
  | cons he hsource => exact ⟨_, he, hsource⟩

/-- A walk that reads something takes a last edge. -/
lemma exists_target (h : Walk shows edges u w v) (hw : w ≠ []) : ∃ e ∈ edges, e.target = v := by
  induction h with
  | nil => exact absurd rfl hw
  | @cons u v e m w he _ _ htail ih =>
    by_cases hnil : w = []
    · subst hnil
      exact ⟨e, he, nil_iff.mp htail⟩
    · exact ih hnil

end Walk

namespace Fragment.Local

variable {f : Fragment} {size : ℕ} {entries : List Entry} {shows : String → Option Mark}
  {u v : String} {w : Word}

/-- A walk through a fragment ends where it began or at a node of the fragment. -/
lemma walk_end (h : f.Local size entries) (hw : Walk shows f.edges u w v) :
    (w = [] ∧ u = v) ∨ Placed size (size + f.marks.length) v := by
  by_cases hnil : w = []
  · subst hnil
    exact .inl ⟨rfl, Walk.nil_iff.mp hw⟩
  · obtain ⟨e, he, rfl⟩ := hw.exists_target hnil
    exact .inr (h.target e he)

/-- The open ends of a fragment lie in the places up to its last node. -/
lemma placed_exits (h : f.Local size entries) (hentries : ∀ x ∈ entries, Placed 0 size x.node) :
    ∀ x ∈ f.exits, Placed 0 (size + f.marks.length) x.node := by
  intro x hx
  rcases h.exits x hx with ⟨l, hl⟩ | hx
  · exact (hentries _ hl).mono (Nat.le_refl _) (by omega)
  · exact hx.mono (by omega) (Nat.le_refl _)

/-- Edges start in the places up to the last node of a fragment. -/
lemma placed_source (h : f.Local size entries) (hentries : ∀ x ∈ entries, Placed 0 size x.node) :
    ∀ e ∈ f.edges, Placed 0 (size + f.marks.length) e.source := by
  intro e he
  rcases h.source e he with ⟨l, hl⟩ | he
  · exact (hentries _ hl).mono (Nat.le_refl _) (by omega)
  · exact he.mono (by omega) (Nat.le_refl _)

end Fragment.Local

namespace Drawing

variable {part first second : Drawing} {b c : Behavior}

/-! ## Two parts -/

/-- The fragment of two parts in a row is local. -/
lemma Realizes.within_andThen (hfirst : Realizes first b) (hsecond : Realizes second c) (size : ℕ)
    (entries : List Entry) : (andThen first second size entries).Local size entries := by
  set f := first size entries with hf
  set g := second (size + f.marks.length) f.continues with hg
  have hlength : (andThen first second size entries).marks.length =
      f.marks.length + g.marks.length := by
    simp [andThen, ← hf, ← hg]
  have hfl : f.Local size entries := hfirst.within size entries
  have hgl : g.Local (size + f.marks.length) f.continues := hsecond.within _ _
  have hold : ∀ id, Placed size (size + f.marks.length) id →
      Placed size (size + (andThen first second size entries).marks.length) id :=
    fun id h => h.mono (Nat.le_refl _) (by omega)
  have hnew : ∀ id, Placed (size + f.marks.length) (size + f.marks.length + g.marks.length) id →
      Placed size (size + (andThen first second size entries).marks.length) id :=
    fun id h => h.mono (by omega) (by omega)
  -- where the second part is entered, the first one is left
  have hbetween : ∀ id, Enters f.continues id → Enters entries id ∨
      Placed size (size + (andThen first second size entries).marks.length) id := by
    rintro id ⟨l, hl⟩
    exact (hfl.exits ⟨id, l⟩ (List.mem_append_left _ hl)).imp_right (hold id)
  refine ⟨fun e he => ?_, fun e he => ?_, fun x hx => ?_⟩
  · rcases List.mem_append.mp he with he | he
    · exact (hfl.source e he).imp_right (hold _)
    · rcases hgl.source e he with h | h
      · exact hbetween _ h
      · exact .inr (hnew _ h)
  · rcases List.mem_append.mp he with he | he
    · exact hold _ (hfl.target e he)
    · exact hnew _ (hgl.target e he)
  · have hexits : x ∈ f.returns ∨ x ∈ g.exits := by
      simp only [Fragment.exits, andThen, ← hf, ← hg, List.mem_append] at hx ⊢
      tauto
    rcases hexits with hx | hx
    · exact (hfl.exits x (List.mem_append_right _ hx)).imp_right (hold _)
    · rcases hgl.exits x hx with h | h
      · exact hbetween _ h
      · exact .inr (hnew _ h)

/-- **The walks through two parts in a row** are those that end in the first part, and those that
leave the first part at one of its open ends and go on through the second.

**Proof sketch.** The nodes of the second part are a region that only edges of the second part lead
into, so a walk falls into two walks (`Walk.split`). If it never enters the region but ends at an
open end of the second part, that end is one that the second part was entered by. -/
lemma ends_andThen_iff (hfirst : Realizes first b) (hsecond : Realizes second c)
    {shows : String → Option Mark} {size : ℕ} {entries : List Entry} {u : String}
    (hentries : ∀ x ∈ entries, Placed 0 size x.node) (hu : Enters entries u) (w : Word)
    (k : Completion) :
    (andThen first second size entries).Ends shows u w k ↔
      ((first size entries).Ends shows u w k ∧ k.Final) ∨
        ∃ w₁ w₂ p, w = w₁ ++ w₂ ∧ Walk shows (first size entries).edges u w₁ p ∧
          Enters (first size entries).continues p ∧
          (second (size + (first size entries).marks.length) (first size entries).continues).Ends
            shows p w₂ k := by
  set f := first size entries with hf
  set g := second (size + f.marks.length) f.continues with hg
  have hfl : f.Local size entries := hfirst.within size entries
  have hgl : g.Local (size + f.marks.length) f.continues := hsecond.within _ _
  obtain ⟨l₀, hl₀⟩ := hu
  -- the region of the second part
  set inside := Placed (size + f.marks.length) (size + f.marks.length + g.marks.length) with hinside
  have houtside : ∀ id, Placed 0 (size + f.marks.length) id → ¬ inside id :=
    fun id h h' => h.disjoint h' (Nat.le_refl _)
  have hsource : ∀ e ∈ f.edges, ¬ inside e.source :=
    fun e he => houtside _ (hfl.placed_source hentries e he)
  have htarget : ∀ e ∈ f.edges, ¬ inside e.target :=
    fun e he => houtside _ ((hfl.target e he).mono (by omega) (Nat.le_refl _))
  have hstart : ¬ inside u := houtside _ ((hentries _ hl₀).mono (Nat.le_refl _) (by omega))
  constructor
  · rintro ⟨v, hwalk, hk⟩
    rcases Walk.split inside hsource htarget hgl.target hwalk hstart with
      ⟨hwalk, hv⟩ | ⟨w₁, p, w₂, h₁, hp, h₂, hne, hv, rfl⟩
    · have hlate : ∀ l, ⟨v, l⟩ ∈ g.exits → Enters f.continues v :=
        fun l hl => (hgl.exits ⟨v, l⟩ hl).resolve_right hv
      cases k with
      | goesOn l =>
        exact .inr ⟨w, [], v, (List.append_nil w).symm, hwalk,
          hlate l (List.mem_append_left _ hk), v, .nil v, hk⟩
      | returns l =>
        rcases List.mem_append.mp hk with hk | hk
        · exact .inl ⟨⟨v, hwalk, hk⟩, trivial⟩
        · exact .inr ⟨w, [], v, (List.append_nil w).symm, hwalk,
            hlate l (List.mem_append_right _ hk), v, .nil v, hk⟩
      | fails => exact .inl ⟨⟨v, hwalk, hk⟩, trivial⟩
    · obtain ⟨e, he, rfl⟩ := h₂.exists_source hne
      have hentered : Enters f.continues e.source := (hgl.source e he).resolve_right hp
      refine .inr ⟨w₁, w₂, e.source, rfl, h₁, hentered, v, h₂, ?_⟩
      cases k with
      | goesOn l => exact hk
      | returns l =>
        rcases List.mem_append.mp hk with hk | hk
        · exact absurd hv (houtside _
            (hfl.placed_exits hentries ⟨v, l⟩ (List.mem_append_right _ hk)))
        · exact hk
      | fails => exact (Word.fails_append hne).mp hk
  · rintro (⟨⟨v, hwalk, hk⟩, hfinal⟩ | ⟨w₁, w₂, p, rfl, h₁, -, v, h₂, hk⟩)
    · refine ⟨v, hwalk.mono (List.subset_append_left _ _), ?_⟩
      cases k with
      | goesOn l => exact absurd hfinal id
      | returns l => exact List.mem_append_left _ hk
      | fails => exact hk
    · refine ⟨v, (h₁.mono (List.subset_append_left _ _)).append
        (h₂.mono (List.subset_append_right _ _)), ?_⟩
      cases k with
      | goesOn l => exact hk
      | returns l => exact List.mem_append_right _ hk
      | fails =>
        have hne : w₂ ≠ [] := by
          rintro rfl
          exact Word.not_fails_nil hk
        exact (Word.fails_append hne).mpr hk

/-- A second part has open ends only if control leaves the first one. -/
lemma continues_ne_nil (hlive : first.Open ∨ second.Idle) {size size' : ℕ} {entries : List Entry}
    (hne : entries ≠ []) (h : (second size' (first size entries).continues).exits ≠ []) :
    (first size entries).continues ≠ [] := by
  rcases hlive with hopen | hidle
  · exact hopen size entries hne
  · intro hnil
    rw [hnil] at h
    exact h (hidle size')

/-- **Two parts in a row realize two behaviors in a row.** The second part may not be drawn with
open ends of its own where control never gets to it. -/
lemma Realizes.andThen (hfirst : Realizes first b) (hsecond : Realizes second c)
    (hlive : first.Open ∨ second.Idle) :
    Realizes (Drawing.andThen first second) (b.andThen c) where
  within := hfirst.within_andThen hsecond
  ends_iff := by
    intro shows size entries hentries hshows u hu w k
    have hcontinues : ∀ x ∈ (first size entries).continues,
        Placed 0 (size + (first size entries).marks.length) x.node := fun x hx =>
      (hfirst.within size entries).placed_exits hentries x (List.mem_append_left _ hx)
    have hfirst_iff := fun w k => hfirst.ends_iff hentries hshows.left hu w k
    have hsecond_iff := fun {p} (hp : Enters (first size entries).continues p) w k =>
      hsecond.ends_iff hcontinues hshows.right hp w k
    rw [ends_andThen_iff hfirst hsecond hentries hu]
    constructor
    · rintro ⟨l, hl, ⟨hb, hfinal⟩ | ⟨w₁, m, w₂, hb, hc, rfl⟩⟩
      · exact .inl ⟨(hfirst_iff w k).mp ⟨l, hl, hb⟩, hfinal⟩
      · obtain ⟨p, h₁, hp⟩ := (hfirst_iff w₁ (.goesOn m)).mp ⟨l, hl, hb⟩
        exact .inr ⟨w₁, w₂, p, rfl, h₁, ⟨m, hp⟩, (hsecond_iff ⟨m, hp⟩ w₂ k).mp ⟨m, hp, hc⟩⟩
    · rintro (⟨hends, hfinal⟩ | ⟨w₁, w₂, p, rfl, h₁, hp, hends⟩)
      · obtain ⟨l, hl, hb⟩ := (hfirst_iff w k).mpr hends
        exact ⟨l, hl, .inl ⟨hb, hfinal⟩⟩
      · obtain ⟨m, hm, hc⟩ := (hsecond_iff hp w₂ k).mpr hends
        obtain ⟨l, hl, hb⟩ := (hfirst_iff w₁ (.goesOn m)).mpr ⟨p, h₁, hm⟩
        exact ⟨l, hl, .inr ⟨w₁, m, w₂, hb, hc, rfl⟩⟩
  goesOn := by
    intro size entries hne hends l
    have hopen : (first size entries).continues ≠ [] :=
      continues_ne_nil hlive hne (List.append_ne_nil_of_left_ne_nil hends _)
    obtain ⟨w₁, m, hb⟩ := hfirst.goesOn hne hopen l
    obtain ⟨w₂, n, hc⟩ := hsecond.goesOn hopen hends m
    exact ⟨w₁ ++ w₂, n, .inr ⟨w₁, m, w₂, hb, hc, rfl⟩⟩
  returns := by
    intro size entries hne hends l
    by_cases hreturns : (first size entries).returns = []
    · have hlate : (second (size + (first size entries).marks.length)
          (first size entries).continues).returns ≠ [] := by
        simpa [Drawing.andThen, hreturns] using hends
      have hopen : (first size entries).continues ≠ [] :=
        continues_ne_nil hlive hne (List.append_ne_nil_of_right_ne_nil _ hlate)
      obtain ⟨w₁, m, hb⟩ := hfirst.goesOn hne hopen l
      obtain ⟨w₂, n, hc⟩ := hsecond.returns hopen hlate m
      exact ⟨w₁ ++ w₂, n, .inr ⟨w₁, m, w₂, hb, hc, rfl⟩⟩
    · obtain ⟨w, n, hb⟩ := hfirst.returns hne hreturns l
      exact ⟨w, n, .inl ⟨hb, trivial⟩⟩

/-! ## Rows of parts -/

/-- Equal behaviors are realized by the same drawings. -/
lemma Realizes.congr (h : Realizes part b) (hbc : ∀ l w k, b l w k ↔ c l w k) :
    Realizes part c := by
  have hbc : b = c := by
    funext l w k
    exact propext (hbc l w k)
  exact hbc ▸ h

/-- A node is always left. -/
lemma open_mark (m : Mark) : (Drawing.mark m).Open :=
  fun _ _ _ => by simp [Drawing.mark]

/-- Nothing in front of a part adds nothing. -/
lemma skip_andThen (part : Drawing) : Drawing.skip.andThen part = part := by
  funext size entries
  simp [Drawing.andThen, Drawing.skip]

/-- A part that lets control through is left. -/
lemma open_skip : Drawing.skip.Open :=
  fun _ _ h => h

/-- Two parts in a row are left if both are. -/
lemma Open.andThen (hfirst : first.Open) (hsecond : second.Open) :
    (Drawing.andThen first second).Open :=
  fun size entries hne => hsecond _ _ (hfirst size entries hne)

/-! ### Properties of rows -/

/-- The properties of drawings that parts in a row have if each of the parts has them. -/
structure Serial (P : Drawing → Prop) : Prop where
  skip : P .skip
  andThen : ∀ {first second : Drawing}, P first → P second → P (.andThen first second)

namespace Serial

variable {P : Drawing → Prop}

/-- A serial property holds of parts in a row. -/
lemma sequence (h : Serial P) {parts : List Drawing} (hparts : ∀ part ∈ parts, P part) :
    P (.sequence parts) := by
  induction parts with
  | nil => exact h.skip
  | cons part parts ih =>
    obtain ⟨hpart, hrest⟩ := List.forall_mem_cons.mp hparts
    exact h.andThen hpart (ih hrest)

/-- A serial property holds of nodes in a row. -/
lemma chain (h : Serial P) {marks : List Mark} (hmarks : ∀ m ∈ marks, P (.mark m)) :
    P (.chain marks) := by
  apply h.sequence
  intro part hpart
  obtain ⟨m, hm, rfl⟩ := List.mem_map.mp hpart
  exact hmarks m hm

end Serial

/-- Parts in a row are left if all of them are. -/
lemma serial_open : Serial Open where
  skip := open_skip
  andThen := Open.andThen

/-- Passing two rows of nodes is passing one row. -/
lemma pass_append_iff (ms ns : List Mark) (l : Option String) (w : Word) (k : Completion) :
    ((Behavior.pass ms).andThen (Behavior.pass ns)) l w k ↔ Behavior.pass (ms ++ ns) l w k := by
  constructor
  · rintro (⟨⟨-, rfl⟩, hfinal⟩ | ⟨u, n, v, ⟨rfl, hn⟩, ⟨rfl, rfl⟩, rfl⟩)
    · exact absurd hfinal id
    · cases hn
      rw [← pendingAfter_append]
      exact ⟨(spell_append l ms ns).symm, rfl⟩
  · rintro ⟨rfl, rfl⟩
    refine .inr ⟨spell l ms, pendingAfter l ms, spell (pendingAfter l ms) ns, ⟨rfl, rfl⟩, ⟨rfl, ?_⟩,
      spell_append l ms ns⟩
    rw [pendingAfter_append]

/-- **A row of nodes that are no errors is passed.** -/
lemma Realizes.chain {marks : List Mark} (h : ∀ m ∈ marks, m.kind ≠ .error) :
    Realizes (Drawing.chain marks) (Behavior.pass marks) := by
  induction marks with
  | nil => exact Realizes.skip
  | cons m ms ih =>
    obtain ⟨hm, hms⟩ := List.forall_mem_cons.mp h
    exact ((Realizes.mark hm).andThen (ih hms) (.inl (open_mark m))).congr (pass_append_iff [m] ms)

/-- A row of nodes is left. -/
lemma open_chain (marks : List Mark) : (Drawing.chain marks).Open :=
  serial_open.chain fun m _ => open_mark m

/-- A row of nodes is drawn in its order. -/
lemma marks_chain (marks : List Mark) (size : ℕ) (entries : List Entry) :
    (chain marks size entries).marks = marks := by
  induction marks generalizing size entries with
  | nil => rfl
  | cons m ms ih => exact congrArg (m :: ·) (ih _ _)

/-- A part that is drawn where control gets to it realizes the same behavior. -/
lemma Realizes.whenLive (h : Realizes part b) : Realizes (Drawing.whenLive part) b := by
  have hlive : ∀ {size entries}, entries ≠ [] →
      Drawing.whenLive part size entries = part size entries := by
    intro size entries hne
    simp [Drawing.whenLive, hne]
  refine ⟨fun size entries => ?_, ?_, ?_, ?_⟩
  · by_cases hne : entries = []
    · subst hne
      exact Realizes.skip.within size []
    · rw [hlive hne]
      exact h.within size entries
  · intro shows size entries hentries hshows u hu w k
    have hne : entries ≠ [] := by
      rintro rfl
      obtain ⟨l, hl⟩ := hu
      cases hl
    rw [hlive hne] at hshows ⊢
    exact h.ends_iff hentries hshows hu w k
  · intro size entries hne
    rw [hlive hne]
    exact h.goesOn hne
  · intro size entries hne
    rw [hlive hne]
    exact h.returns hne

/-- A part that is drawn where control gets to it has no ends elsewhere. -/
lemma idle_whenLive (part : Drawing) : (Drawing.whenLive part).Idle :=
  fun _ => by simp [Drawing.whenLive, Drawing.skip, Fragment.exits]

/-! ## Renamed ends -/

/-- A fragment with open ends has some at which control goes on or returns. -/
lemma exits_ne_nil {f : Fragment} (h : f.exits ≠ []) : f.continues ≠ [] ∨ f.returns ≠ [] := by
  by_cases hnil : f.continues = []
  · exact .inr (by simpa [Fragment.exits, hnil] using h)
  · exact .inl hnil

/-- A part whose ends all return realizes a behavior that returns. -/
lemma Realizes.leaving (h : Realizes part b) :
    Realizes (Drawing.leaving part) (Behavior.leaving b) where
  within size entries := by
    obtain ⟨hsource, htarget, hexits⟩ := h.within size entries
    exact ⟨hsource, htarget, fun x hx => hexits x hx⟩
  ends_iff := by
    intro shows size entries hentries hshows u hu w k
    have hpart := fun k => h.ends_iff hentries hshows hu w k
    constructor
    · rintro ⟨l, hl, k', hb, rfl⟩
      obtain ⟨v, hwalk, hk⟩ := (hpart k').mp ⟨l, hl, hb⟩
      refine ⟨v, hwalk, ?_⟩
      cases k' with
      | goesOn m => exact List.mem_append_left _ hk
      | returns m => exact List.mem_append_right _ hk
      | fails => exact hk
    · rintro ⟨v, hwalk, hk⟩
      have hsome : ∃ k', (part size entries).Ends shows u w k' ∧ k'.leave = k := by
        cases k with
        | goesOn m => cases hk
        | returns m =>
          rcases List.mem_append.mp hk with hk | hk
          · exact ⟨.goesOn m, ⟨v, hwalk, hk⟩, rfl⟩
          · exact ⟨.returns m, ⟨v, hwalk, hk⟩, rfl⟩
        | fails => exact ⟨.fails, ⟨v, hwalk, hk⟩, rfl⟩
      obtain ⟨k', hends, rfl⟩ := hsome
      obtain ⟨l, hl, hb⟩ := (hpart k').mpr hends
      exact ⟨l, hl, k', hb, rfl⟩
  goesOn := fun _ hends => absurd rfl hends
  returns := by
    intro size entries hne hends l
    rcases exits_ne_nil hends with hends | hends
    · obtain ⟨w, m, hb⟩ := h.goesOn hne hends l
      exact ⟨w, m, .goesOn m, hb, rfl⟩
    · obtain ⟨w, m, hb⟩ := h.returns hne hends l
      exact ⟨w, m, .returns m, hb, rfl⟩

/-- The part that returns at once returns by an edge with its label. -/
lemma Realizes.returning (label : String) :
    Realizes (Drawing.returning label) (Behavior.returning label) where
  within size entries := by
    refine ⟨by simp [Drawing.returning], by simp [Drawing.returning], fun x hx => .inl ?_⟩
    obtain ⟨e, he, rfl⟩ := List.mem_map.mp hx
    exact ⟨e.label, he⟩
  ends_iff := by
    rintro shows size entries - - u ⟨l, hl⟩ w k
    constructor
    · rintro ⟨-, -, rfl, rfl⟩
      exact ⟨u, .nil u, List.mem_map.mpr ⟨⟨u, l⟩, hl, rfl⟩⟩
    · rintro ⟨v, hwalk, hk⟩
      obtain ⟨rfl, rfl⟩ := Walk.no_edges_iff.mp hwalk
      cases k with
      | goesOn m => cases hk
      | returns m =>
        obtain ⟨e, -, heq⟩ := List.mem_map.mp hk
        obtain ⟨-, rfl⟩ := Entry.mk.inj heq
        exact ⟨l, hl, rfl, rfl⟩
      | fails => exact absurd hk Word.not_fails_nil
  goesOn := fun _ hends => absurd rfl hends
  returns := fun _ _ _ => ⟨[], some label, rfl, rfl⟩

/-- If a part has open ends, some run of its behavior does not fail. -/
lemma Realizes.exists_exit (h : Realizes part b) {size : ℕ} {entries : List Entry}
    (hne : entries ≠ []) (hends : (part size entries).exits ≠ []) (l : Option String) :
    ∃ w k, b l w k ∧ k ≠ .fails := by
  rcases exits_ne_nil hends with hends | hends
  · obtain ⟨w, m, hb⟩ := h.goesOn hne hends l
    exact ⟨w, .goesOn m, hb, by simp⟩
  · obtain ⟨w, m, hb⟩ := h.returns hne hends l
    exact ⟨w, .returns m, hb, by simp⟩

section Settle

variable {shows : String → Option Mark} {size : ℕ} {entries : List Entry} {u : String}

/-- A part with open ends, settled: control goes on wherever it leaves the part. -/
lemma ends_settle_of_exits (h : Realizes part b) (label : Option String)
    (hentries : ∀ x ∈ entries, Placed 0 size x.node)
    (hshows : Shows shows size (part size entries).marks) (hu : Enters entries u)
    (hexits : (part size entries).exits ≠ []) (w : Word) (k : Completion) :
    (∃ l, ⟨u, l⟩ ∈ entries ∧ Behavior.settle label b l w k) ↔
      (Drawing.settle label part size entries).Ends shows u w k := by
  have hpart := fun k => h.ends_iff hentries hshows hu w k
  have hfree : Drawing.settle label part size entries =
      { part size entries with continues := (part size entries).exits, returns := [] } := by
    simp [Drawing.settle, hexits]
  rw [hfree]
  constructor
  · rintro ⟨l, hl, ⟨k', hb, rfl⟩ | ⟨hfail, -⟩⟩
    · obtain ⟨v, hwalk, hk⟩ := (hpart k').mp ⟨l, hl, hb⟩
      refine ⟨v, hwalk, ?_⟩
      cases k' with
      | goesOn m => exact List.mem_append_left _ hk
      | returns m => exact List.mem_append_right _ hk
      | fails => exact hk
    · obtain ⟨v, k', hb, hk'⟩ := h.exists_exit (List.ne_nil_of_mem hl) hexits l
      exact absurd (hfail v k' hb) hk'
  · rintro ⟨v, hwalk, hk⟩
    have hsome : ∃ k', (part size entries).Ends shows u w k' ∧ k'.proceed = k := by
      cases k with
      | goesOn m =>
        rcases List.mem_append.mp hk with hk | hk
        · exact ⟨.goesOn m, ⟨v, hwalk, hk⟩, rfl⟩
        · exact ⟨.returns m, ⟨v, hwalk, hk⟩, rfl⟩
      | returns m => cases hk
      | fails => exact ⟨.fails, ⟨v, hwalk, hk⟩, rfl⟩
    obtain ⟨k', hends, rfl⟩ := hsome
    obtain ⟨l, hl, hb⟩ := (hpart k').mpr hends
    exact ⟨l, hl, .inl ⟨k', hb, rfl⟩⟩

/-- A part without open ends, settled: control goes on from where it entered the part.

**Proof sketch.** The part has no run but failing ones. A walk that ends where the part was entered
has taken no edge, because every edge of the part leads to a node of its own. -/
lemma ends_settle_of_no_exits (h : Realizes part b) (label : Option String)
    (hentries : ∀ x ∈ entries, Placed 0 size x.node)
    (hshows : Shows shows size (part size entries).marks) (hu : Enters entries u)
    (hexits : (part size entries).exits = []) (w : Word) (k : Completion) :
    (∃ l, ⟨u, l⟩ ∈ entries ∧ Behavior.settle label b l w k) ↔
      (Drawing.settle label part size entries).Ends shows u w k := by
  have hpart := fun w k => h.ends_iff hentries hshows hu w k
  have hstuck : Drawing.settle label part size entries =
      { part size entries with
        continues := entries.map fun e => ⟨e.node, label⟩, returns := [] } := by
    simp [Drawing.settle, hexits]
  have hfails : ∀ l, ⟨u, l⟩ ∈ entries → ∀ v k, b l v k → k = .fails := by
    intro l hl v k hb
    obtain ⟨x, -, hk⟩ := (hpart v k).mp ⟨l, hl, hb⟩
    cases k with
    | goesOn m => exact absurd (List.mem_append_left _ hk) (hexits ▸ List.not_mem_nil)
    | returns m => exact absurd (List.mem_append_right _ hk) (hexits ▸ List.not_mem_nil)
    | fails => rfl
  rw [hstuck]
  constructor
  · rintro ⟨l, hl, ⟨k', hb, rfl⟩ | ⟨-, rfl, rfl⟩⟩
    · obtain rfl := hfails l hl w k' hb
      exact (hpart w .fails).mp ⟨l, hl, hb⟩
    · exact ⟨u, .nil u, List.mem_map.mpr ⟨⟨u, l⟩, hl, rfl⟩⟩
  · rintro ⟨v, hwalk, hk⟩
    cases k with
    | goesOn m =>
      obtain ⟨e, he, heq⟩ := List.mem_map.mp hk
      obtain ⟨rfl, rfl⟩ := Entry.mk.inj heq
      rcases (h.within size entries).walk_end hwalk with ⟨rfl, -⟩ | hnew
      · obtain ⟨l, hl⟩ := hu
        exact ⟨l, hl, .inr ⟨hfails l hl, rfl, rfl⟩⟩
      · exact ((hentries e he).disjoint hnew (Nat.le_refl _)).elim
    | returns m => cases hk
    | fails =>
      obtain ⟨l, hl, hb⟩ := (hpart w .fails).mpr ⟨v, hwalk, hk⟩
      exact ⟨l, hl, .inl ⟨.fails, hb, rfl⟩⟩

end Settle

/-- **A part whose ends all go on** realizes a behavior that goes on. -/
lemma Realizes.settle (h : Realizes part b) (label : Option String) :
    Realizes (Drawing.settle label part) (Behavior.settle label b) where
  within size entries := by
    obtain ⟨hsource, htarget, hexits⟩ := h.within size entries
    refine ⟨hsource, htarget, fun x hx => ?_⟩
    rw [Fragment.exits, Drawing.settle, List.append_nil] at hx
    by_cases hnil : (part size entries).exits = []
    · simp only [hnil, List.isEmpty_nil, if_true, List.mem_map] at hx
      obtain ⟨e, he, rfl⟩ := hx
      exact .inl ⟨e.label, he⟩
    · simp only [List.isEmpty_iff, hnil, if_false] at hx
      exact hexits x hx
  ends_iff := by
    intro shows size entries hentries hshows u hu w k
    by_cases hexits : (part size entries).exits = []
    · exact ends_settle_of_no_exits h label hentries hshows hu hexits w k
    · exact ends_settle_of_exits h label hentries hshows hu hexits w k
  goesOn := by
    intro size entries _ _ l
    by_cases hfail : ∀ v k, b l v k → k = .fails
    · exact ⟨[], label, .inr ⟨hfail, rfl, rfl⟩⟩
    · obtain ⟨v, k, hb, hk⟩ : ∃ v k, b l v k ∧ k ≠ .fails := by
        simpa only [not_forall, exists_prop] using hfail
      cases k with
      | goesOn m => exact ⟨v, m, .inl ⟨_, hb, rfl⟩⟩
      | returns m => exact ⟨v, m, .inl ⟨_, hb, rfl⟩⟩
      | fails => exact absurd rfl hk
  returns := fun _ hends => absurd rfl hends

/-- A settled part is always left. -/
lemma open_settle (label : Option String) (part : Drawing) : (Drawing.settle label part).Open := by
  intro size entries hne
  by_cases hnil : (part size entries).exits = []
  · simpa [Drawing.settle, hnil] using hne
  · simp [Drawing.settle, hnil]

end Drawing

end Flowchart
