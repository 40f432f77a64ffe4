import Flowchart.Flow.Contract
import Flowchart.Proofs.Flow.Choice

set_option relaxedAutoImplicit false
set_option autoImplicit false

/-!
# Preconditions

The preconditions of a contract are drawn in a row, each with its errors. Control passes all of
them, or it fails with one of the errors of one of them.

## Main definitions

* `Flowchart.Behavior.guard`, `Flowchart.Behavior.guards`: what preconditions do.
* `Flowchart.passWord`, `Flowchart.FailsGuard`: the words of preconditions that hold or fail.

## Main results

* `Flowchart.Drawing.Realizes.guard`: the drawing of a precondition.
* `Flowchart.Drawing.Realizes.guards`: the drawing of several preconditions in a row.
-/

namespace Flowchart

/-! ## A star of edges -/

namespace Walk

variable {shows : String → Option Mark} {u v : String} {w : Word} {low : ℕ}

/-- **A star.** A walk from a node along edges to new nodes, all of which start there, takes at most
one of them. -/
lemma star_iff {marks : List Mark} {l : Option String} (hu : Placed 0 low u)
    (hshows : Shows shows low marks) :
    Walk shows ((List.range marks.length).map fun i => ⟨u, nodeId (low + i + 1), l⟩) u w v ↔
      (w = [] ∧ v = u) ∨
        ∃ i m, marks[i]? = some m ∧ w = [(l, m)] ∧ v = nodeId (low + i + 1) := by
  constructor
  · intro h
    cases h with
    | nil => exact .inl ⟨rfl, rfl⟩
    | @cons _ _ e m w he hs hm hrest =>
      obtain ⟨i, hi, rfl⟩ := List.mem_map.mp he
      have hmark : marks[i]? = some m := by
        obtain ⟨m', hm'⟩ : ∃ m', marks[i]? = some m' :=
          ⟨_, List.getElem?_eq_getElem (List.mem_range.mp hi)⟩
        rw [hm', ← hshows i m' hm', hm]
      cases hrest with
      | nil => exact .inr ⟨i, m, hmark, rfl, rfl⟩
      | cons he' hs' =>
        obtain ⟨j, -, rfl⟩ := List.mem_map.mp he'
        obtain rfl : u = nodeId (low + i + 1) := hs'
        rw [Placed.nodeId_iff] at hu
        omega
  · rintro (⟨rfl, rfl⟩ | ⟨i, m, hm, rfl, rfl⟩)
    · exact .nil v
    · have hi : i < marks.length := (List.getElem?_eq_some_iff.mp hm).1
      exact single (e := ⟨u, nodeId (low + i + 1), l⟩)
        (List.mem_map.mpr ⟨i, List.mem_range.mpr hi, rfl⟩) (hshows i m hm)

end Walk

/-! ## Words of preconditions -/

/-- The node of a precondition in its place. -/
def preconditionMark (place : ℕ) : Mark :=
  ⟨.precondition, "pre." ++ toString place⟩

/-- Passes a precondition, or fails with one of its errors. -/
def Behavior.guard (place : ℕ) (tags : List String) : Behavior := fun l w o =>
  (w = [(l, preconditionMark place)] ∧ o = .goesOn (some "pass")) ∨
    ∃ label ∈ errorLabels place tags,
      w = [(l, preconditionMark place), (some "fail", ⟨.error, label⟩)] ∧ o = .fails

/-- The word of preconditions that all hold, from a place on. -/
def passWord (l : Option String) (place : ℕ) : (count : ℕ) → Word
  | 0 => []
  | count + 1 => (l, preconditionMark place) :: passWord (some "pass") (place + 1) count

/-- The pending label behind preconditions that all hold. -/
def passLabel (l : Option String) (count : ℕ) : Option String :=
  if count = 0 then l else some "pass"

/-- The words of preconditions from a place on of which one fails: those before it hold, and one of
its errors is what it leads to. -/
def FailsGuard (guards : List (List String)) (l : Option String) (place : ℕ) (w : Word) : Prop :=
  ∃ i tags label, guards[i]? = some tags ∧ label ∈ errorLabels (place + i) tags ∧
    w = passWord l place (i + 1) ++ [(some "fail", ⟨.error, label⟩)]

/-- Passes preconditions from a place on, or fails with an error of one of them. -/
def Behavior.guards (guards : List (List String)) (place : ℕ) : Behavior := fun l w o =>
  (w = passWord l place guards.length ∧ o = .goesOn (passLabel l guards.length)) ∨
    (FailsGuard guards l place w ∧ o = .fails)

/-- Behind a first precondition that holds, the label of the first one does not count. -/
lemma passLabel_pass (l : Option String) (count : ℕ) :
    passLabel (some "pass") count = passLabel l (count + 1) := by
  simp [passLabel]

/-- A precondition fails in a row if it is the first one, or if it fails in the rest of the row. -/
lemma failsGuard_cons_iff {tags : List String} {guards : List (List String)} {l : Option String}
    {place : ℕ} {w : Word} :
    FailsGuard (tags :: guards) l place w ↔
      (∃ label ∈ errorLabels place tags,
        w = [(l, preconditionMark place), (some "fail", ⟨.error, label⟩)]) ∨
      ∃ v, FailsGuard guards (some "pass") (place + 1) v ∧
        w = (l, preconditionMark place) :: v := by
  constructor
  · rintro ⟨i, tags', label, hi, hlabel, rfl⟩
    cases i with
    | zero =>
      obtain rfl := Option.some.inj hi
      exact .inl ⟨label, hlabel, rfl⟩
    | succ i =>
      refine .inr ⟨_, ⟨i, tags', label, hi, ?_, rfl⟩, rfl⟩
      rwa [show place + 1 + i = place + (i + 1) by omega]
  · rintro (⟨label, hlabel, rfl⟩ | ⟨v, ⟨i, tags', label, hi, hlabel, rfl⟩, rfl⟩)
    · exact ⟨0, tags, label, rfl, hlabel, rfl⟩
    · refine ⟨i + 1, tags', label, hi, ?_, rfl⟩
      rwa [show place + (i + 1) = place + 1 + i by omega]

/-- A row of preconditions is a first one and the rest of the row. -/
lemma Behavior.guards_cons_iff {tags : List String} {guards : List (List String)} {place : ℕ}
    {l : Option String} {w : Word} {o : Completion} :
    (Behavior.guard place tags).andThen (Behavior.guards guards (place + 1)) l w o ↔
      Behavior.guards (tags :: guards) place l w o := by
  constructor
  · rintro (⟨⟨-, rfl⟩ | ⟨label, hlabel, rfl, rfl⟩, hfinal⟩ |
      ⟨u, m, v, ⟨rfl, hm⟩ | ⟨-, -, -, hm⟩, hrest, rfl⟩)
    · exact absurd hfinal id
    · exact .inr ⟨failsGuard_cons_iff.mpr (.inl ⟨label, hlabel, rfl⟩), rfl⟩
    · cases hm
      rcases hrest with ⟨rfl, rfl⟩ | ⟨hfails, rfl⟩
      · exact .inl ⟨rfl, congrArg Completion.goesOn (passLabel_pass l guards.length)⟩
      · exact .inr ⟨failsGuard_cons_iff.mpr (.inr ⟨v, hfails, rfl⟩), rfl⟩
    · cases hm
  · rintro (⟨rfl, rfl⟩ | ⟨hfails, rfl⟩)
    · refine .inr ⟨[(l, preconditionMark place)], some "pass", _, .inl ⟨rfl, rfl⟩,
        .inl ⟨rfl, ?_⟩, rfl⟩
      rw [passLabel_pass l]
      rfl
    · rcases failsGuard_cons_iff.mp hfails with ⟨label, hlabel, rfl⟩ | ⟨v, hlater, rfl⟩
      · exact .inl ⟨.inr ⟨label, hlabel, rfl, rfl⟩, trivial⟩
      · exact .inr ⟨[(l, preconditionMark place)], some "pass", v, .inl ⟨rfl, rfl⟩,
          .inr ⟨hlater, rfl⟩, rfl⟩

/-! ## A precondition -/

namespace Drawing

/-- A precondition is left where it holds. -/
lemma open_guard (place : ℕ) (tags : List String) : (Drawing.guard place tags).Open :=
  fun _ _ _ => by simp [Drawing.guard]

/-- The errors that a precondition leads to. -/
def errorMarks (place : ℕ) (tags : List String) : List Mark :=
  (errorLabels place tags).map fun label => ⟨.error, label⟩

/-- The edges from a precondition to its errors. -/
def failureEdges (size count : ℕ) : List Graph.Edge :=
  (List.range count).map fun i => ⟨nodeId (size + 1), nodeId (size + 1 + i + 1), some "fail"⟩

/-- The drawing of a precondition: its node, and a star of edges to its errors. -/
lemma guard_eq (place : ℕ) (tags : List String) (size : ℕ) (entries : List Entry) :
    Drawing.guard place tags size entries = ⟨preconditionMark place :: errorMarks place tags,
      link entries (nodeId (size + 1)) ++ failureEdges size (errorMarks place tags).length,
      [⟨nodeId (size + 1), some "pass"⟩], []⟩ := by
  simp [Drawing.guard, preconditionMark, errorMarks, failureEdges, Nat.add_right_comm]

/-- The edges to the errors of a precondition run behind the nodes before it. -/
lemma mem_failureEdges {size count : ℕ} {e : Graph.Edge} (he : e ∈ failureEdges size count) :
    Placed size (size + (count + 1)) e.source ∧ Placed size (size + (count + 1)) e.target := by
  obtain ⟨i, hi, rfl⟩ := List.mem_map.mp he
  have hlt := List.mem_range.mp hi
  rw [Placed.nodeId_iff, Placed.nodeId_iff]
  omega

/-- The fragment of a precondition is local. -/
lemma within_guard (place : ℕ) (tags : List String) (size : ℕ) (entries : List Entry) :
    (Drawing.guard place tags size entries).Local size entries := by
  rw [guard_eq]
  have hnode : Placed size (size + ((errorMarks place tags).length + 1)) (nodeId (size + 1)) := by
    rw [Placed.nodeId_iff]
    omega
  refine ⟨fun e he => ?_, fun e he => ?_, fun x hx => ?_⟩
  · rcases List.mem_append.mp he with he | he
    · exact .inl (mem_link he).1
    · exact .inr (mem_failureEdges he).1
  · rcases List.mem_append.mp he with he | he
    · rw [(mem_link he).2]
      exact hnode
    · exact (mem_failureEdges he).2
  · obtain rfl := List.mem_singleton.mp hx
    exact .inr hnode

/-- **A precondition realizes its behavior.** -/
lemma Realizes.guard (place : ℕ) (tags : List String) :
    Realizes (Drawing.guard place tags) (Behavior.guard place tags) where
  within := within_guard place tags
  ends_iff := by
    intro shows size entries hentries hshows u hu w k
    rw [guard_eq] at hshows ⊢
    have hnode : Placed 0 (size + 1) (nodeId (size + 1)) := by simp
    rw [Fragment.ends_enter_iff (failureEdges size (errorMarks place tags).length) rfl hentries
      (fun e he => (mem_failureEdges he).1.not_old) (fun e he => (mem_failureEdges he).2.not_old)
      (by simp [Fragment.exits]) hshows.head hu]
    simp only [failureEdges, Walk.star_iff hnode hshows.tail]
    constructor
    · rintro ⟨l, hl, ⟨rfl, rfl⟩ | ⟨label, hlabel, rfl, rfl⟩⟩
      · exact ⟨l, [], _, hl, rfl, .inl ⟨rfl, rfl⟩, List.mem_singleton.mpr rfl⟩
      · have hmem : (⟨.error, label⟩ : Mark) ∈ errorMarks place tags :=
          List.mem_map.mpr ⟨label, hlabel, rfl⟩
        obtain ⟨i, hi⟩ := List.getElem?_of_mem hmem
        exact ⟨l, _, _, hl, rfl, .inr ⟨i, _, hi, rfl, rfl⟩, _, rfl, rfl⟩
    · rintro ⟨l, w', v, hl, rfl, ⟨rfl, rfl⟩ | ⟨i, m, hm, rfl, rfl⟩, hk⟩
      · cases k with
        | goesOn n =>
          obtain ⟨-, rfl⟩ := Entry.mk.inj (List.mem_singleton.mp hk)
          exact ⟨l, hl, .inl ⟨rfl, rfl⟩⟩
        | returns n => cases hk
        | fails => cases Word.fails_singleton.mp hk
      · obtain ⟨label, hlabel, rfl⟩ := List.mem_map.mp (List.mem_of_getElem? hm)
        cases k with
        | goesOn n =>
          have := nodeId_inj.mp (Entry.mk.inj (List.mem_singleton.mp hk)).1
          omega
        | returns n => cases hk
        | fails => exact ⟨l, hl, .inr ⟨label, hlabel, rfl, rfl⟩⟩
  goesOn := fun _ _ l => ⟨_, some "pass", .inl ⟨rfl, rfl⟩⟩
  returns := fun _ h => absurd rfl h

/-! ## Preconditions in a row -/

/-- The drawing of preconditions in a row, from a place on. -/
def guards (guards : List (List String)) (place : ℕ) : Drawing :=
  sequence ((guards.zipIdx place).map fun (tags, place) => guard place tags)

/-- A serial property holds of preconditions in a row. -/
lemma Serial.guards {P : Drawing → Prop} (h : Serial P) {guards : List (List String)}
    (hguards : ∀ tags ∈ guards, ∀ place, P (Drawing.guard place tags)) (place : ℕ) :
    P (Drawing.guards guards place) := by
  apply h.sequence
  intro part hpart
  obtain ⟨⟨tags, place'⟩, hmem, rfl⟩ := List.mem_map.mp hpart
  exact hguards tags (List.fst_mem_of_mem_zipIdx hmem) place'

/-- Preconditions in a row are left where all of them hold. -/
lemma open_guards (guards : List (List String)) (place : ℕ) :
    (Drawing.guards guards place).Open :=
  serial_open.guards (fun tags _ place => open_guard place tags) place

/-- **Preconditions in a row** realize their behavior. -/
lemma Realizes.guards (guards : List (List String)) (place : ℕ) :
    Realizes (Drawing.guards guards place) (Behavior.guards guards place) := by
  induction guards generalizing place with
  | nil =>
    refine Realizes.skip.congr fun l w o => ⟨fun h => .inl h, ?_⟩
    rintro (h | ⟨⟨i, tags, label, hi, -⟩, -⟩)
    · exact h
    · cases hi
  | cons tags guards ih =>
    have hrow := (Realizes.guard place tags).andThen (ih (place + 1)) (.inl (open_guard place tags))
    exact hrow.congr fun _ _ _ => Behavior.guards_cons_iff

end Drawing

end Flowchart
