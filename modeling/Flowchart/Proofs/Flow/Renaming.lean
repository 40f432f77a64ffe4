import Flowchart.Proofs.Flow.Construction
import Flowchart.Proofs.Graph.WellFormed

set_option relaxedAutoImplicit false
set_option autoImplicit false

/-!
# Renaming the nodes before a part

A part of a chart does not look at the open ends that lead into it, and it names its own nodes by
their places. So if the open ends are renamed and the part is drawn behind another number of nodes,
what is drawn is renamed too, and the part's own nodes are shifted to their new places.

## Main definitions

* `Flowchart.Entry.rename`, `Flowchart.Graph.Edge.rename`, `Flowchart.Fragment.rename`: renaming
  nodes.
* `Flowchart.Shifts`: the renamings that shift some places.
* `Flowchart.shiftBehind`: a renaming of old nodes, extended by the shift of the new ones.
* `Flowchart.Drawing.Natural`: the parts whose drawings are renamed along.

## Main results

* `Flowchart.Drawing.hereditary_natural`: the parts that are drawn of statements are natural.
* `Flowchart.Drawing.Natural.shiftBehind_eq`: a natural part behind renamed open ends.
-/

namespace Flowchart

/-! ## Renamings -/

/-- An open end whose node is renamed. -/
def Entry.rename (ρ : String → String) (x : Entry) : Entry :=
  ⟨ρ x.node, x.label⟩

/-- An edge whose nodes are renamed. -/
def Graph.Edge.rename (ρ : String → String) (e : Graph.Edge) : Graph.Edge :=
  ⟨ρ e.source, ρ e.target, e.label⟩

/-- A fragment whose nodes are renamed. -/
def Fragment.rename (ρ : String → String) (f : Fragment) : Fragment where
  marks := f.marks
  edges := f.edges.map (.rename ρ)
  continues := f.continues.map (.rename ρ)
  returns := f.returns.map (.rename ρ)

/-- Renamed open ends lead to a renamed node. -/
@[simp] lemma map_rename_link (ρ : String → String) (entries : List Entry) (target : String) :
    (link entries target).map (.rename ρ) = link (entries.map (.rename ρ)) (ρ target) := by
  simp [link, Graph.Edge.rename, Entry.rename, Function.comp_def]

/-- Renamed open ends lead back to a renamed node. -/
@[simp] lemma map_rename_backEdges (ρ : String → String) (entries : List Entry) (id : String) :
    (Drawing.backEdges entries id).map (.rename ρ) =
      Drawing.backEdges (entries.map (.rename ρ)) (ρ id) := by
  simp [Drawing.backEdges, Graph.Edge.rename, Entry.rename, Function.comp_def]

/-- A renamed fragment has the renamed open ends. -/
@[simp] lemma Fragment.exits_rename (ρ : String → String) (f : Fragment) :
    (f.rename ρ).exits = f.exits.map (.rename ρ) := by
  simp [Fragment.exits, Fragment.rename]

/-! ## Shifts -/

/-- The renamings that take the places behind `size` others to those behind `size'` others, as far
as there are `count` of them. -/
def Shifts (ρ : String → String) (size size' count : ℕ) : Prop :=
  ∀ i < count, ρ (nodeId (size + i + 1)) = nodeId (size' + i + 1)

namespace Shifts

variable {ρ : String → String} {size size' count count' : ℕ}

/-- The first place is shifted to the first one. -/
lemma head (h : Shifts ρ size size' (count + 1)) : ρ (nodeId (size + 1)) = nodeId (size' + 1) :=
  h 0 (by omega)

/-- The places in a first row are shifted. -/
lemma left (h : Shifts ρ size size' (count + count')) : Shifts ρ size size' count :=
  fun i hi => h i (by omega)

/-- The places behind a first row are shifted. -/
lemma right (h : Shifts ρ size size' (count + count')) :
    Shifts ρ (size + count) (size' + count) count' := by
  intro i hi
  simpa only [Nat.add_assoc] using h (count + i) (by omega)

/-- The places behind the first one are shifted. -/
lemma tail (h : Shifts ρ size size' (count + 1)) : Shifts ρ (size + 1) (size' + 1) count := by
  have hcons : Shifts ρ size size' (1 + count) := by rwa [Nat.add_comm]
  exact hcons.right

end Shifts

/-- A renaming of the nodes in the first `size` places, extended by the shift of the `count` nodes
behind them, which come to stand behind `size'` others. -/
def shiftBehind (ρ : String → String) (size size' count : ℕ) (id : String) : String :=
  match (List.range count).find? fun i => nodeId (size + i + 1) == id with
  | some i => nodeId (size' + i + 1)
  | none => ρ id

section ShiftBehind

variable {ρ : String → String} {size size' count : ℕ} {id : String}

/-- An extended renaming shifts the nodes behind. -/
lemma shifts_shiftBehind (ρ : String → String) (size size' count : ℕ) :
    Shifts (shiftBehind ρ size size' count) size size' count := by
  intro i hi
  have hfind : (List.range count).find? (fun j => nodeId (size + j + 1) == nodeId (size + i + 1)) =
      some i := by
    rw [List.find?_range_eq_some]
    refine ⟨by simp, List.mem_range.mpr hi, fun j hj => ?_⟩
    simp only [Bool.not_eq_true', beq_eq_false_iff_ne, ne_eq, nodeId_inj]
    omega
  rw [shiftBehind, hfind]

/-- An extended renaming keeps what was said of the old nodes. -/
lemma shiftBehind_of_placed (h : Placed 0 size id) : shiftBehind ρ size size' count id = ρ id := by
  obtain ⟨k, -, hk, rfl⟩ := h
  have hfind : (List.range count).find? (fun j => nodeId (size + j + 1) == nodeId k) = none := by
    rw [List.find?_eq_none]
    intro j _
    rw [beq_iff_eq, nodeId_inj]
    omega
  rw [shiftBehind, hfind]

/-- The nodes behind are shifted to their new places, and show what they showed. -/
lemma map_nodesBehind_shift {σ : String → String} {marks : List Mark}
    (h : Shifts σ size size' marks.length) :
    nodesBehind size' marks = (nodesBehind size marks).map fun n =>
      ⟨σ n.id, n.kind, n.label, n.order + (size' - size)⟩ := by
  induction marks generalizing size size' with
  | nil => rfl
  | cons m ms ih =>
    rw [nodesBehind_cons, nodesBehind_cons, List.map_cons, h.head, ih h.tail]
    have horder : ((size' + 1 : ℕ) : Int) = (size + 1 : ℕ) + ((size' : Int) - size) := by omega
    have hrest : ((size' + 1 : ℕ) : Int) - (size + 1 : ℕ) = size' - size := by omega
    rw [hrest, ← horder]

end ShiftBehind

/-! ## Natural parts -/

namespace Drawing

variable {part first second : Drawing}

/-- **A natural part** is drawn in the same way behind renamed open ends, up to the renaming, if the
renaming shifts the nodes of the part. -/
def Natural (part : Drawing) : Prop :=
  ∀ (ρ : String → String) (size size' : ℕ) (entries : List Entry),
    Shifts ρ size size' (part size entries).marks.length →
    part size' (entries.map (.rename ρ)) = (part size entries).rename ρ

namespace Natural

/-- The empty part is natural. -/
lemma skip : Natural Drawing.skip :=
  fun _ _ _ _ _ => rfl

/-- A node is natural. -/
lemma mark (m : Mark) : Natural (Drawing.mark m) := by
  intro ρ size size' entries h
  simp [Drawing.mark, Fragment.rename, Entry.rename, h.head]

/-- A node behind which control ends is natural. -/
lemma stop (m : Mark) : Natural (Drawing.stop m) := by
  intro ρ size size' entries h
  simp [Drawing.stop, Drawing.mark, Fragment.rename, h.head]

/-- **Two natural parts in a row** are natural. -/
lemma andThen (hfirst : Natural first) (hsecond : Natural second) :
    Natural (first.andThen second) := by
  intro ρ size size' entries h
  set f := first size entries with hf
  have hcount : (first.andThen second size entries).marks.length =
      f.marks.length + (second (size + f.marks.length) f.continues).marks.length := by
    rw [Drawing.andThen, List.length_append]
  rw [hcount] at h
  have hsame : first size' (entries.map (.rename ρ)) = f.rename ρ := hfirst ρ _ _ entries h.left
  have hnext := hsecond ρ _ _ f.continues h.right
  simp only [Drawing.andThen, ← hf, hsame]
  simp only [Fragment.rename, hnext, List.map_append]

/-- A natural part is natural where control gets to it. -/
lemma whenLive (h : Natural part) : Natural (Drawing.whenLive part) := by
  intro ρ size size' entries hshifts
  unfold Drawing.whenLive at hshifts ⊢
  rw [List.isEmpty_map]
  split_ifs at hshifts ⊢
  · rfl
  · exact h ρ size size' entries hshifts

/-- A natural part all of whose ends return is natural. -/
lemma leaving (h : Natural part) : Natural (Drawing.leaving part) := by
  intro ρ size size' entries hshifts
  simp only [Drawing.leaving, h ρ size size' entries hshifts, Fragment.exits_rename]
  rfl

/-- **A choice between natural parts** is natural. -/
lemma branch {whenTrue whenFalse : Drawing} (htrue : Natural whenTrue) (hfalse : Natural whenFalse)
    (label : String) : Natural (Drawing.branch label whenTrue whenFalse) := by
  intro ρ size size' entries h
  set f := whenTrue (size + 1) [⟨nodeId (size + 1), some "true"⟩] with hf
  have hcount : (Drawing.branch label whenTrue whenFalse size entries).marks.length =
      f.marks.length + (whenFalse (size + 1 + f.marks.length)
        [⟨nodeId (size + 1), some "false"⟩]).marks.length + 1 := by
    simp only [Drawing.branch, List.length_cons, List.length_append, ← hf]
  rw [hcount] at h
  have hid := h.head
  have hthen : whenTrue (size' + 1) [⟨nodeId (size' + 1), some "true"⟩] = f.rename ρ := by
    have hsame := htrue ρ _ _ [⟨nodeId (size + 1), some "true"⟩] h.tail.left
    rwa [List.map_singleton, Entry.rename, hid] at hsame
  have helse := hfalse ρ _ _ [⟨nodeId (size + 1), some "false"⟩] h.tail.right
  rw [List.map_singleton, Entry.rename, hid] at helse
  simp only [Drawing.branch, ← hf, hthen]
  simp only [Fragment.rename, helse, List.map_append, map_rename_link, hid]

/-- **A loop over a natural part** is natural. -/
lemma loop {body : Drawing} (h : Natural body) (label : String) :
    Natural (Drawing.loop label body) := by
  intro ρ size size' entries hshifts
  have hid := hshifts.head
  have hbody := h ρ _ _ [⟨nodeId (size + 1), some "iterate"⟩] hshifts.tail
  rw [List.map_singleton, Entry.rename, hid] at hbody
  simp only [Drawing.loop, hbody]
  simp only [Fragment.rename, List.map_append, map_rename_link, map_rename_backEdges, hid,
    List.map_singleton, Entry.rename]

/-- **A natural part behind renamed open ends** is renamed by the renaming of the old nodes,
extended by the shift of its own ones. -/
lemma shiftBehind_eq (h : Natural part) (ρ : String → String) {size : ℕ} (size' : ℕ)
    {entries : List Entry} (hentries : ∀ x ∈ entries, Placed 0 size x.node) :
    part size' (entries.map (.rename ρ)) =
      (part size entries).rename
        (shiftBehind ρ size size' (part size entries).marks.length) := by
  set σ := shiftBehind ρ size size' (part size entries).marks.length with hσ
  have hsame : entries.map (Entry.rename ρ) = entries.map (Entry.rename σ) := by
    refine List.map_congr_left fun x hx => ?_
    rw [Entry.rename, Entry.rename, hσ, shiftBehind_of_placed (hentries x hx)]
  rw [hsame]
  exact h σ size size' entries (shifts_shiftBehind ρ size size' _)

end Natural

/-- **The parts that are drawn of statements are natural.** -/
lemma hereditary_natural {s : Setting} : Hereditary s Natural where
  skip := .skip
  mark _ := .mark _
  stop _ := .stop _
  andThen hfirst hsecond _ := .andThen hfirst hsecond
  whenLive := .whenLive
  leaving := .leaving
  branch t htrue hfalse := .branch htrue hfalse t.branchLabel
  loop t form hbody := .loop hbody (t.loopLabel form)

end Drawing

end Flowchart
