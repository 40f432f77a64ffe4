import Flowchart.Flow.Stmt
import Flowchart.Proofs.Flow.Behavior

set_option relaxedAutoImplicit false
set_option autoImplicit false

/-!
# Drawings and their behaviors

A drawing realizes a behavior if the walks through the nodes and edges that it adds read exactly the
words of the behavior: a walk from an open end that leads into the part to an open end that it
leaves stands for going on or returning, and a walk to an error stands for failing. Each way to
build drawings realizes the matching way to build behaviors.

## Main definitions

* `Flowchart.Fragment.Local`: the edges of a fragment run from where it is entered or from its own
  nodes to its own nodes.
* `Flowchart.Fragment.Ends`: the words and completions of the walks through a fragment.
* `Flowchart.Drawing.Realizes`: a drawing has the walks that a behavior asks for.

## Main results

* `Flowchart.Fragment.ends_enter_iff`: the walks through a part that starts with a node.
* `Flowchart.Drawing.Realizes.mark`, `Flowchart.Drawing.Realizes.stop`: single nodes.

## Design

Open ends at one node may differ in their labels, and walks do not tell them apart before they take
an edge. So the walks from a node are compared with the behaviors for all labels that are pending
there.
-/

namespace Flowchart

/-! ## Fragments -/

/-- Whether some open end is at a node. -/
def Enters (entries : List Entry) (u : String) : Prop :=
  ∃ l, ⟨u, l⟩ ∈ entries

/-- Whether the nodes behind `size` others show the given marks. -/
def Shows (shows : String → Option Mark) (size : ℕ) (marks : List Mark) : Prop :=
  ∀ i m, marks[i]? = some m → shows (nodeId (size + i + 1)) = some m

namespace Shows

variable {shows : String → Option Mark} {size : ℕ} {m : Mark} {ms ns : List Mark}

/-- The first of several nodes. -/
lemma head (h : Shows shows size (m :: ms)) : shows (nodeId (size + 1)) = some m :=
  h 0 m rfl

/-- The nodes behind the first one. -/
lemma tail (h : Shows shows size (m :: ms)) : Shows shows (size + 1) ms := by
  intro i m' hm'
  have := h (i + 1) m' (by simpa using hm')
  rwa [show size + (i + 1) + 1 = size + 1 + i + 1 by omega] at this

/-- The first part of the nodes. -/
lemma left (h : Shows shows size (ms ++ ns)) : Shows shows size ms := by
  intro i m' hm'
  apply h i m'
  rw [List.getElem?_append_left (List.getElem?_eq_some_iff.mp hm').1]
  exact hm'

/-- The second part of the nodes. -/
lemma right (h : Shows shows size (ms ++ ns)) : Shows shows (size + ms.length) ns := by
  intro i m' hm'
  have := h (ms.length + i) m' (by
    rw [List.getElem?_append_right (by omega)]
    simpa using hm')
  rwa [show size + (ms.length + i) + 1 = size + ms.length + i + 1 by omega] at this

end Shows

/-- The edges and ends of a fragment stay at its own nodes and the nodes at which it is entered, and
no edge leads back to the latter. -/
structure Fragment.Local (f : Fragment) (size : ℕ) (entries : List Entry) : Prop where
  source : ∀ e ∈ f.edges,
    Enters entries e.source ∨ Placed size (size + f.marks.length) e.source
  target : ∀ e ∈ f.edges, Placed size (size + f.marks.length) e.target
  exits : ∀ x ∈ f.exits, Enters entries x.node ∨ Placed size (size + f.marks.length) x.node

/-- What has become of control behind a walk through a fragment, by the last node of the walk and
its word. -/
def Fragment.EndsAt (f : Fragment) (v : String) (w : Word) : Completion → Prop
  | .goesOn l => ⟨v, l⟩ ∈ f.continues
  | .returns l => ⟨v, l⟩ ∈ f.returns
  | .fails => w.Fails

/-- The words and completions of the walks from a node through a fragment. -/
def Fragment.Ends (f : Fragment) (shows : String → Option Mark) (u : String) (w : Word)
    (c : Completion) : Prop :=
  ∃ v, Walk shows f.edges u w v ∧ f.EndsAt v w c

namespace Drawing

/-- **A drawing realizes a behavior**: its walks are the words of the behavior. -/
structure Realizes (part : Drawing) (b : Behavior) : Prop where
  within : ∀ size entries, (part size entries).Local size entries
  ends_iff : ∀ {shows : String → Option Mark} {size : ℕ} {entries : List Entry},
    (∀ x ∈ entries, Placed 0 size x.node) → Shows shows size (part size entries).marks →
    ∀ {u}, Enters entries u → ∀ w c,
      (∃ l, ⟨u, l⟩ ∈ entries ∧ b l w c) ↔ (part size entries).Ends shows u w c
  /-- An open end at which control goes on is left by some run. -/
  goesOn : ∀ {size : ℕ} {entries : List Entry}, entries ≠ [] →
    (part size entries).continues ≠ [] → ∀ l, ∃ w m, b l w (.goesOn m)
  /-- An open end at which control returns is left by some run. -/
  returns : ∀ {size : ℕ} {entries : List Entry}, entries ≠ [] →
    (part size entries).returns ≠ [] → ∀ l, ∃ w m, b l w (.returns m)

/-- A part that control leaves wherever it can enter. -/
def Open (part : Drawing) : Prop :=
  ∀ size entries, entries ≠ [] → (part size entries).continues ≠ []

/-- A part that has no open ends where control does not enter it. -/
def Idle (part : Drawing) : Prop :=
  ∀ size, (part size []).exits = []

end Drawing

/-! ## Walks that start with a node -/

namespace Walk

variable {shows : String → Option Mark} {edges : List Graph.Edge} {entries : List Entry}
  {size : ℕ} {m : Mark} {u v : String} {w : Word}

/-- Without edges nothing is read. -/
lemma no_edges_iff : Walk shows [] u w v ↔ w = [] ∧ u = v := by
  constructor
  · intro h
    cases h with
    | nil => exact ⟨rfl, rfl⟩
    | cons he => cases he
  · rintro ⟨rfl, rfl⟩
    exact .nil u

/-- **The way into a part that starts with a node.** If all open ends are linked to the next node
and the other edges run behind it, a walk from an open end stays there or comes to that node first.
-/
lemma enter_iff (hentries : ∀ x ∈ entries, Placed 0 size x.node)
    (hsource : ∀ e ∈ edges, ¬ Placed 0 size e.source)
    (htarget : ∀ e ∈ edges, ¬ Placed 0 size e.target)
    (hm : shows (nodeId (size + 1)) = some m) (hu : Placed 0 size u) :
    Walk shows (link entries (nodeId (size + 1)) ++ edges) u w v ↔
      (w = [] ∧ u = v) ∨ ∃ l w', ⟨u, l⟩ ∈ entries ∧ w = (l, m) :: w' ∧
        Walk shows edges (nodeId (size + 1)) w' v := by
  have hnew : ¬ Placed 0 size (nodeId (size + 1)) := by
    rw [Placed.nodeId_iff]
    omega
  have hlink : ∀ e ∈ link entries (nodeId (size + 1)),
      Placed 0 size e.source ∧ e.target = nodeId (size + 1) := by
    intro e he
    obtain ⟨x, hx, rfl⟩ := List.mem_map.mp he
    exact ⟨hentries x hx, rfl⟩
  have hstay : ∀ e ∈ link entries (nodeId (size + 1)) ++ edges, ¬ Placed 0 size e.source →
      e ∈ edges ∧ ¬ Placed 0 size e.target := by
    intro e he hold
    rcases List.mem_append.mp he with he | he
    · exact absurd (hlink e he).1 hold
    · exact ⟨he, htarget e he⟩
  constructor
  · intro h
    cases h with
    | nil => exact .inl ⟨rfl, rfl⟩
    | @cons _ _ e m' w he hs hm' hw =>
      rcases List.mem_append.mp he with he | he
      · obtain ⟨x, hx, rfl⟩ := List.mem_map.mp he
        obtain rfl : x.node = u := hs
        rw [hm, Option.some.injEq] at hm'
        subst hm'
        exact .inr ⟨x.label, w, hx, rfl, (stay (¬ Placed 0 size ·) hstay hw hnew).1⟩
      · exact absurd (hs ▸ hu) (hsource e he)
  · rintro (⟨rfl, rfl⟩ | ⟨l, w', hl, rfl, hw⟩)
    · exact .nil u
    · have he : ⟨u, nodeId (size + 1), l⟩ ∈ link entries (nodeId (size + 1)) :=
        List.mem_map.mpr ⟨⟨u, l⟩, hl, rfl⟩
      exact .cons (List.mem_append_left _ he) rfl hm
        (hw.mono (List.subset_append_right _ _))

end Walk

/-- A walk that reads nothing ends where it began, at an open end. -/
lemma Fragment.EndsAt.exit {f : Fragment} {v : String} {c : Completion} (h : f.EndsAt v [] c) :
    ∃ l, ⟨v, l⟩ ∈ f.exits := by
  cases c with
  | goesOn l => exact ⟨l, List.mem_append_left _ h⟩
  | returns l => exact ⟨l, List.mem_append_right _ h⟩
  | fails => exact absurd h Word.not_fails_nil

/-- **The walks through a part that starts with a node** read its mark first. -/
lemma Fragment.ends_enter_iff {f : Fragment} {shows : String → Option Mark} {size : ℕ}
    {entries : List Entry} {m : Mark} {u : String} (rest : List Graph.Edge)
    (hedges : f.edges = link entries (nodeId (size + 1)) ++ rest)
    (hentries : ∀ x ∈ entries, Placed 0 size x.node)
    (hsource : ∀ e ∈ rest, ¬ Placed 0 size e.source)
    (htarget : ∀ e ∈ rest, ¬ Placed 0 size e.target)
    (hexits : ∀ x ∈ f.exits, ¬ Placed 0 size x.node)
    (hm : shows (nodeId (size + 1)) = some m) (hu : Enters entries u) (w : Word)
    (c : Completion) :
    f.Ends shows u w c ↔ ∃ l w' v, ⟨u, l⟩ ∈ entries ∧ w = (l, m) :: w' ∧
      Walk shows rest (nodeId (size + 1)) w' v ∧ f.EndsAt v w c := by
  obtain ⟨l₀, hl₀⟩ := hu
  have hwalk := fun w v => Walk.enter_iff (w := w) (v := v) hentries hsource htarget hm
    (hentries _ hl₀)
  rw [Fragment.Ends, hedges]
  constructor
  · rintro ⟨v, hw, hc⟩
    rcases (hwalk w v).mp hw with ⟨rfl, rfl⟩ | ⟨l, w', hl, rfl, hw'⟩
    · obtain ⟨l, hl⟩ := hc.exit
      exact absurd (hentries _ hl₀) (hexits ⟨u, l⟩ hl)
    · exact ⟨l, w', v, hl, rfl, hw', hc⟩
  · rintro ⟨l, w', v, hl, rfl, hw', hc⟩
    exact ⟨v, (hwalk _ v).mpr (.inr ⟨l, w', hl, rfl, hw'⟩), hc⟩

/-! ## Parts without structure -/

/-- Links lead from where a part is entered to their target. -/
lemma mem_link {entries : List Entry} {target : String} {e : Graph.Edge}
    (he : e ∈ link entries target) : Enters entries e.source ∧ e.target = target := by
  obtain ⟨x, hx, rfl⟩ := List.mem_map.mp he
  exact ⟨⟨x.label, hx⟩, rfl⟩

namespace Drawing.Realizes

variable {part : Drawing} {b : Behavior} {m : Mark}

/-- The empty part passes no nodes. -/
lemma skip : Realizes Drawing.skip (Behavior.pass []) where
  within size entries := by
    refine ⟨by simp [Drawing.skip], by simp [Drawing.skip], fun x hx => .inl ⟨x.label, ?_⟩⟩
    simpa [Drawing.skip, Fragment.exits] using hx
  ends_iff := by
    intro shows size entries _ _ u _ w c
    constructor
    · rintro ⟨l, hl, rfl, rfl⟩
      exact ⟨u, .nil u, hl⟩
    · rintro ⟨v, hwalk, hc⟩
      obtain ⟨rfl, rfl⟩ := Walk.no_edges_iff.mp hwalk
      cases c with
      | goesOn l => exact ⟨l, hc, rfl, rfl⟩
      | returns l => cases hc
      | fails => exact absurd hc Word.not_fails_nil
  goesOn := fun _ _ l => ⟨[], l, rfl, rfl⟩
  returns := fun _ h => absurd rfl h

/-- A fragment of one node is local if all its ends are at the node. -/
lemma within_node {f : Fragment} {size : ℕ} {entries : List Entry} (hmarks : f.marks = [m])
    (hedges : f.edges = link entries (nodeId (size + 1)))
    (hexits : ∀ x ∈ f.exits, x.node = nodeId (size + 1)) : f.Local size entries := by
  have hnode : Placed size (size + f.marks.length) (nodeId (size + 1)) := by
    simp [hmarks]
  refine ⟨fun e he => .inl (mem_link (hedges ▸ he)).1, fun e he => ?_, fun x hx => .inr ?_⟩
  · rw [(mem_link (hedges ▸ he)).2]
    exact hnode
  · rw [hexits x hx]
    exact hnode

/-- The walks through a fragment of one node read that node. -/
lemma ends_node {f : Fragment} {shows : String → Option Mark} {size : ℕ} {entries : List Entry}
    {u : String} (hedges : f.edges = link entries (nodeId (size + 1)))
    (hexits : ∀ x ∈ f.exits, x.node = nodeId (size + 1))
    (hentries : ∀ x ∈ entries, Placed 0 size x.node)
    (hm : shows (nodeId (size + 1)) = some m) (hu : Enters entries u) (w : Word)
    (c : Completion) :
    f.Ends shows u w c ↔
      ∃ l, ⟨u, l⟩ ∈ entries ∧ w = [(l, m)] ∧ f.EndsAt (nodeId (size + 1)) w c := by
  have hexits' : ∀ x ∈ f.exits, ¬ Placed 0 size x.node := by
    intro x hx
    rw [hexits x hx, Placed.nodeId_iff]
    omega
  rw [Fragment.ends_enter_iff [] (by rw [hedges, List.append_nil]) hentries (by simp)
    (by simp) hexits' hm hu]
  constructor
  · rintro ⟨l, w', v, hl, rfl, hw', hc⟩
    obtain ⟨rfl, rfl⟩ := Walk.no_edges_iff.mp hw'
    exact ⟨l, hl, rfl, hc⟩
  · rintro ⟨l, hl, rfl, hc⟩
    exact ⟨l, [], _, hl, rfl, .nil _, hc⟩

/-- A node that is no error is passed. -/
lemma mark (hm : m.kind ≠ .error) : Realizes (Drawing.mark m) (Behavior.pass [m]) where
  within size entries := within_node rfl rfl (by simp [Drawing.mark, Fragment.exits])
  ends_iff := by
    intro shows size entries hentries hshows u hu w c
    rw [ends_node (m := m) rfl (by simp [Drawing.mark, Fragment.exits]) hentries hshows.head hu]
    constructor
    · rintro ⟨l, hl, rfl, rfl⟩
      exact ⟨l, hl, rfl, List.mem_singleton.mpr rfl⟩
    · rintro ⟨l, hl, rfl, hc⟩
      cases c with
      | goesOn l' =>
        obtain ⟨-, rfl⟩ := Entry.mk.inj (List.mem_singleton.mp hc)
        exact ⟨l, hl, rfl, rfl⟩
      | returns l' => cases hc
      | fails => exact absurd (Word.fails_singleton.mp hc) hm
  goesOn := fun _ _ l => ⟨[(l, m)], none, rfl, rfl⟩
  returns := fun _ h => absurd rfl h

/-- Control ends at an error. -/
lemma stop (hm : m.kind = .error) : Realizes (Drawing.stop m) (Behavior.stop m) where
  within size entries :=
    within_node rfl rfl (by simp [Drawing.stop, Drawing.mark, Fragment.exits])
  ends_iff := by
    intro shows size entries hentries hshows u hu w c
    rw [ends_node (m := m) rfl (by simp [Drawing.stop, Drawing.mark, Fragment.exits]) hentries
      hshows.head hu]
    constructor
    · rintro ⟨l, hl, rfl, rfl⟩
      exact ⟨l, hl, rfl, Word.fails_singleton.mpr hm⟩
    · rintro ⟨l, hl, rfl, hc⟩
      cases c with
      | goesOn l' => cases hc
      | returns l' => cases hc
      | fails => exact ⟨l, hl, rfl, rfl⟩
  goesOn := fun _ h => absurd rfl h
  returns := fun _ h => absurd rfl h

end Drawing.Realizes

end Flowchart
