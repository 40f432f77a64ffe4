import Flowchart.Proofs.Graph.Frozen

set_option relaxedAutoImplicit false
set_option autoImplicit false

/-!
# Walks

The finite paths of a flow chart, and the words that are read along them: the label of each edge
together with what the node at its end shows. A part of a chart is entered at few nodes, so a walk
through several parts falls into walks through each of them.

## Main definitions

* `Flowchart.Word`: edge labels and marks in turn.
* `Flowchart.Walk`: a path along given edges, with its word.
* `Flowchart.Graph.Reads`: the words of a graph between two nodes.
* `Flowchart.Word.Fails`: the words that end in an error.

## Main results

* `Flowchart.Walk.stay`: a walk never leaves a region that no edge leaves.
* `Flowchart.Walk.split`: a walk into a region that is never left has a first part outside of it.
-/

namespace Flowchart

/-- What is read along a path: for each edge its label and the mark of the node it leads to. -/
abbrev Word := List (Option String × Mark)

/-- A word whose last node is an error. -/
def Word.Fails (w : Word) : Prop :=
  ∃ letter, w.getLast? = some letter ∧ letter.2.kind = .error

/-- A path along some edges from node to node with the word that it reads, where `shows` tells the
marks of the nodes. -/
inductive Walk (shows : String → Option Mark) (edges : List Graph.Edge) :
    String → Word → String → Prop where
  | nil (u : String) : Walk shows edges u [] u
  | cons {u v : String} {e : Graph.Edge} {m : Mark} {w : Word} :
    e ∈ edges → e.source = u → shows e.target = some m → Walk shows edges e.target w v →
    Walk shows edges u ((e.label, m) :: w) v

/-- Some path of a flow graph from one node to another reads a word. -/
def Graph.Reads (g : Graph) (u : String) (w : Word) (v : String) : Prop :=
  Walk g.mark? g.edges u w v

/-- Some path of a flow graph from a node to an error reads a word. -/
def Graph.ReadsError (g : Graph) (u : String) (w : Word) : Prop :=
  ∃ n ∈ g.nodes, n.kind = .error ∧ g.Reads u w n.id

/-! ## Words that end in an error -/

namespace Word

/-- The empty word does not fail. -/
lemma not_fails_nil : ¬ Fails [] := by
  rintro ⟨letter, h, -⟩
  cases h

/-- A word of one letter fails if and only if the letter is an error. -/
lemma fails_singleton {l : Option String} {m : Mark} : Fails [(l, m)] ↔ m.kind = .error := by
  constructor
  · rintro ⟨letter, h, hkind⟩
    cases h
    exact hkind
  · intro h
    exact ⟨(l, m), rfl, h⟩

/-- Whether a word fails is decided by its last nonempty part. -/
lemma fails_append {v w : Word} (h : w ≠ []) : Fails (v ++ w) ↔ Fails w := by
  rw [Fails, Fails, List.getLast?_append_of_ne_nil v h]

/-- A letter that is no error may be put in front. -/
lemma fails_cons {l : Option String} {m : Mark} {w : Word} (h : m.kind ≠ .error) :
    Fails ((l, m) :: w) ↔ Fails w := by
  cases w with
  | nil => exact ⟨fun hf => absurd (fails_singleton.mp hf) h, fun hf => absurd hf not_fails_nil⟩
  | cons letter w => exact fails_append (v := [(l, m)]) (by simp)

end Word

namespace Walk

variable {shows : String → Option Mark} {edges edges' first second : List Graph.Edge}
  {u v x : String} {w w' : Word}

/-! ## Composition -/

/-- The walk along a single edge. -/
lemma single {e : Graph.Edge} {m : Mark} (he : e ∈ edges) (hm : shows e.target = some m) :
    Walk shows edges e.source [(e.label, m)] e.target :=
  .cons he rfl hm (.nil _)

/-- Two walks, one behind the other. -/
lemma append (h : Walk shows edges u w v) (h' : Walk shows edges v w' x) :
    Walk shows edges u (w ++ w') x := by
  induction h with
  | nil => exact h'
  | cons he hsource hm _ ih => exact .cons he hsource hm (ih h')

/-- A walk is a walk along any edges that include its own. -/
lemma mono (h : Walk shows edges u w v) (hsub : edges ⊆ edges') : Walk shows edges' u w v := by
  induction h with
  | nil => exact .nil _
  | cons he hsource hm _ ih => exact .cons (hsub he) hsource hm ih

/-- A walk that reads the empty word stays where it is. -/
@[simp] lemma nil_iff : Walk shows edges u [] v ↔ u = v := by
  constructor
  · intro h
    cases h
    rfl
  · rintro rfl
    exact .nil u

/-- A walk ends in a node that shows the last mark it reads. -/
lemma shows_of_fails (h : Walk shows edges u w v) (hf : w.Fails) :
    ∃ m, shows v = some m ∧ m.kind = .error := by
  induction h with
  | nil => exact absurd hf Word.not_fails_nil
  | @cons u v e m w _ _ hm hw ih =>
    by_cases hnil : w = []
    · subst hnil
      obtain rfl := nil_iff.mp hw
      exact ⟨m, hm, Word.fails_singleton.mp hf⟩
    · exact ih ((Word.fails_append (v := [(e.label, m)]) hnil).mp hf)

/-- A walk to an error from a node that shows none reads a word that fails. -/
lemma fails_of_shows (h : Walk shows edges u w v) {m : Mark} (hv : shows v = some m)
    (hm : m.kind = .error) (hw : w ≠ []) : w.Fails := by
  induction h with
  | nil => exact absurd rfl hw
  | @cons u v e m' w _ _ hm' htail ih =>
    by_cases hnil : w = []
    · subst hnil
      obtain rfl := nil_iff.mp htail
      rw [hm', Option.some.injEq] at hv
      exact Word.fails_singleton.mpr (hv ▸ hm)
    · exact (Word.fails_append (v := [(e.label, m')]) hnil).mpr (ih hv hnil)

/-! ## Regions -/

/-- **A region that is never left.** If all edges that start in a region belong to `first` and end
in the region, a walk from inside goes along `first` and ends inside. -/
lemma stay (region : String → Prop)
    (hregion : ∀ e ∈ edges, region e.source → e ∈ first ∧ region e.target)
    (h : Walk shows edges u w v) (hu : region u) : Walk shows first u w v ∧ region v := by
  induction h with
  | nil => exact ⟨.nil _, hu⟩
  | cons he hsource hm _ ih =>
    obtain ⟨hfirst, htarget⟩ := hregion _ he (hsource ▸ hu)
    obtain ⟨hwalk, hv⟩ := ih htarget
    exact ⟨.cons hfirst hsource hm hwalk, hv⟩

/-- **The entry into a region.** If the edges of `first` run outside of a region and those of
`second` lead into it, a walk from outside first goes along `first`, and once it has taken an edge
of `second` it goes along `second` only.

**Proof sketch.** Induction on the walk. From the first edge of `second` on the walk is inside the
region, where only edges of `second` start, so `stay` applies. -/
lemma split (region : String → Prop) (hsource : ∀ e ∈ first, ¬ region e.source)
    (htarget : ∀ e ∈ first, ¬ region e.target) (hregion : ∀ e ∈ second, region e.target)
    (h : Walk shows (first ++ second) u w v) (hu : ¬ region u) :
    (Walk shows first u w v ∧ ¬ region v) ∨
      ∃ w₁ x w₂, Walk shows first u w₁ x ∧ ¬ region x ∧ Walk shows second x w₂ v ∧ w₂ ≠ [] ∧
        region v ∧ w = w₁ ++ w₂ := by
  have hstay : ∀ e ∈ first ++ second, region e.source → e ∈ second ∧ region e.target := by
    intro e he hr
    rcases List.mem_append.mp he with he | he
    · exact absurd hr (hsource e he)
    · exact ⟨he, hregion e he⟩
  induction h with
  | nil => exact .inl ⟨.nil _, hu⟩
  | @cons u v e m w he hs hm hw ih =>
    rcases List.mem_append.mp he with he | he
    · rcases ih (htarget e he) with ⟨hfirst, hv⟩ | ⟨w₁, x, w₂, h₁, hx, h₂, hne, hv, rfl⟩
      · exact .inl ⟨.cons he hs hm hfirst, hv⟩
      · exact .inr ⟨(e.label, m) :: w₁, x, w₂, .cons he hs hm h₁, hx, h₂, hne, hv, rfl⟩
    · obtain ⟨hsecond, hv⟩ := stay region hstay hw (hregion e he)
      exact .inr ⟨[], u, (e.label, m) :: w, .nil u, hu, .cons he hs hm hsecond, by simp, hv, rfl⟩

end Walk

end Flowchart
