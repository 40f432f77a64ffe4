import Flowchart.Command.Run
import Flowchart.Proofs.Json

set_option relaxedAutoImplicit false
set_option autoImplicit false

/-!
# Artifacts as data

Artifacts that are printed as data can be read back: every node and edge in its order, an edge
without a label as such and one with an empty label too, and all that belongs to the artifact. Since
the text of data determines the data, the printed text determines the artifacts.

## Main definitions

* `Flowchart.Json.field?`: the value of a key in an object.
* `Flowchart.Artifact.ofJson?`: the artifact that data describe, with readers for its parts.

## Main results

* `Flowchart.Artifact.ofJson?_toJson`: an artifact is read back from its data.
* `Flowchart.Artifact.toJson_lossless`: artifacts are determined by the text of their data.
-/

namespace Flowchart

/-! ## Reading values -/

namespace Json

/-- The value of a key in an object. -/
def field? (key : String) : Json → Option Json
  | .object entries => entries.lookup key
  | _ => none

/-- A value is looked up among the entries one after the other. -/
lemma field?_cons (key name : String) (value : Json) (entries : List (String × Json)) :
    (object ((name, value) :: entries)).field? key =
      if key == name then some value else (object entries).field? key := by
  rw [field?, List.lookup_cons]
  cases key == name <;> rfl

/-- The text of a string. -/
def string? : Json → Option String
  | .string s => some s
  | _ => none

/-- The number of an integer. -/
def integer? : Json → Option Int
  | .integer n => some n
  | _ => none

/-- The items of an array, each read in the same way. -/
def items? {α : Type} (read : Json → Option α) : Json → Option (List α)
  | .array items => items.mapM read
  | _ => none

/-- Items are read back if each of them is. -/
lemma items?_map {α : Type} {read : Json → Option α} {write : α → Json}
    (h : ∀ x, read (write x) = some x) (xs : List α) :
    (Json.array (xs.map write)).items? read = some xs := by
  rw [items?]
  induction xs with
  | nil => rfl
  | cons x xs ih => simp [List.mapM_cons, h, ih]

end Json

/-! ## Reading artifacts -/

namespace Graph

/-- The node that data describe. -/
def Node.ofJson? (j : Json) : Option Node := do
  let id ← (← j.field? "id").string?
  let kind ← (NodeKind.ofName (← (← j.field? "kind").string?)).toOption
  let label ← (← j.field? "label").string?
  let order ← (← j.field? "order").integer?
  return ⟨id, kind, label, order⟩

/-- The edge that data describe; without an entry for it there is no label. -/
def Edge.ofJson? (j : Json) : Option Edge := do
  let source ← (← j.field? "from").string?
  let target ← (← j.field? "to").string?
  match j.field? "label" with
  | none => return ⟨source, target, none⟩
  | some label => return ⟨source, target, some (← label.string?)⟩

/-- The flow graph that data describe. -/
def ofJson? (j : Json) : Option Graph := do
  let nodes ← (← j.field? "nodes").items? Node.ofJson?
  let edges ← (← j.field? "edges").items? Edge.ofJson?
  return ⟨nodes, edges⟩

/-- The summary that data describe. -/
def Summary.ofJson? (j : Json) : Option Summary := do
  let steps ← (← j.field? "stepCount").integer?
  let branches ← (← j.field? "branchCount").integer?
  let errorPaths ← (← j.field? "errorPathCount").integer?
  let unsupported ← (← j.field? "unsupportedCount").integer?
  return ⟨steps, branches, errorPaths, unsupported⟩

end Graph

/-- The artifact that data describe. -/
def Artifact.ofJson? (j : Json) : Option Artifact := do
  let ownerKind ← (OwnerKind.ofName (← (← j.field? "ownerKind").string?)).toOption
  let ownerId ← (← j.field? "ownerId").string?
  let graph ← Graph.ofJson? (← j.field? "graph")
  let diagram ← (← j.field? "diagram").string?
  let hash ← (← j.field? "hash").string?
  let summary ← Graph.Summary.ofJson? (← j.field? "summary")
  return ⟨ownerKind, ownerId, graph, diagram, hash, summary⟩

/-! ## Data are read back -/

namespace Graph

/-- A node is read back from its data. -/
lemma Node.ofJson?_toJson (n : Node) : ofJson? n.toJson = some n := by
  have hkind : (NodeKind.ofName n.kind.name).toOption = some n.kind := by
    rw [NodeKind.ofName_name]
    rfl
  simp [ofJson?, toJson, Json.field?_cons, Json.string?, Json.integer?, hkind]

/-- An edge is read back from its data, and whether it has a label. -/
lemma Edge.ofJson?_toJson (e : Edge) : ofJson? e.toJson = some e := by
  obtain ⟨source, target, label⟩ := e
  cases label with
  | none => rfl
  | some label => rfl

/-- A flow graph is read back from its data. -/
lemma ofJson?_toJson (g : Graph) : ofJson? g.toJson = some g := by
  simp [ofJson?, toJson, Json.field?_cons, Json.items?_map Node.ofJson?_toJson,
    Json.items?_map Edge.ofJson?_toJson]

/-- A summary is read back from its data. -/
lemma Summary.ofJson?_toJson (s : Summary) : ofJson? s.toJson = some s :=
  rfl

end Graph

namespace Artifact

/-- **An artifact is read back from its data.** -/
lemma ofJson?_toJson (a : Artifact) : ofJson? a.toJson = some a := by
  have hkind : (OwnerKind.ofName a.ownerKind.name).toOption = some a.ownerKind := by
    rw [OwnerKind.ofName_name]
    rfl
  simp [ofJson?, toJson, Json.field?_cons, Json.string?, hkind, Graph.ofJson?_toJson,
    Graph.Summary.ofJson?_toJson]

/-- Artifacts are read back from the array of their data. -/
lemma items?_toJson (artifacts : List Artifact) :
    (Json.array (artifacts.map toJson)).items? ofJson? = some artifacts :=
  Json.items?_map ofJson?_toJson artifacts

end Artifact

/-! ## Printed data -/

namespace Run

/-- The text that is printed of artifacts as data: the array of them, and the end of its last line.
-/
def dataText (artifacts : List Artifact) : String :=
  unlines [(Json.array (artifacts.map Artifact.toJson)).render]

/-- Data are printed with an end of the line. -/
lemma dataText_eq (artifacts : List Artifact) :
    dataText artifacts = (Json.array (artifacts.map Artifact.toJson)).render ++ "\n" := by
  simp [dataText, unlines]

/-- Something is printed even if there are no artifacts. -/
lemma dataText_ne (artifacts : List Artifact) : dataText artifacts ≠ "" := by
  intro h
  rw [dataText_eq] at h
  simpa using congrArg String.toList h

/-- The printed data determine the artifacts. -/
lemma dataText_injective : Function.Injective dataText := by
  intro artifacts artifacts' h
  rw [dataText_eq, dataText_eq] at h
  have harray := Json.render_injective ((String.append_left_inj "\n").mp h)
  have hread := congrArg (Json.items? Artifact.ofJson?) harray
  rw [Artifact.items?_toJson, Artifact.items?_toJson] at hread
  exact Option.some.inj hread

/-- Without an owner all artifacts are printed. -/
lemma printed_sections_none (d : Disk) (artifacts : List Artifact) :
    (sections d true none artifacts).printed = dataText artifacts :=
  rfl

/-- With an owner its artifacts are printed, and nothing if it has none. -/
lemma printed_sections_some (d : Disk) (id : String) (artifacts : List Artifact) :
    (sections d true (some id) artifacts).printed =
      let chosen := artifacts.filter fun a => a.ownerId == id
      if chosen = [] then "" else dataText chosen := by
  unfold sections
  dsimp only
  cases artifacts.filter fun a => a.ownerId == id with
  | nil => rfl
  | cons a chosen => rfl

end Run

namespace Artifact

/-- **Data lose nothing.** Every artifact is read back from its data: its owner, every node with its
kind and order, every edge with its label or without one, its diagram, fingerprint and summary; and
so is every list of artifacts. The text that is printed of artifacts as data is the same only for
the same artifacts, of all owners or of one.

**Proof sketch.** The readers undo the writers part by part (`Graph.Node.ofJson?_toJson`,
`Graph.Edge.ofJson?_toJson`, `Graph.Summary.ofJson?_toJson`), and the text of data determines the
data (`Json.render_injective`). -/
theorem toJson_lossless :
    (∀ a : Artifact, ofJson? a.toJson = some a) ∧
      (∀ artifacts, (Json.array (artifacts.map toJson)).items? ofJson? = some artifacts) ∧
      (∀ d d' artifacts artifacts',
        (Run.sections d true none artifacts).printed =
            (Run.sections d' true none artifacts').printed ↔
          artifacts = artifacts') ∧
      ∀ d d' id artifacts artifacts',
        (Run.sections d true (some id) artifacts).printed =
            (Run.sections d' true (some id) artifacts').printed ↔
          (artifacts.filter fun a => a.ownerId == id) =
            artifacts'.filter fun a => a.ownerId == id := by
  refine ⟨ofJson?_toJson, items?_toJson, fun d d' artifacts artifacts' => ?_,
    fun d d' id artifacts artifacts' => ?_⟩
  · rw [Run.printed_sections_none, Run.printed_sections_none]
    exact Run.dataText_injective.eq_iff
  · rw [Run.printed_sections_some, Run.printed_sections_some]
    dsimp only
    generalize (artifacts.filter fun a => a.ownerId == id) = chosen
    generalize (artifacts'.filter fun a => a.ownerId == id) = chosen'
    -- one that is not found prints nothing, which is no array
    split_ifs with h h' h'
    · simp [h, h']
    · simpa [h, Ne.symm h'] using (Run.dataText_ne chosen').symm
    · simpa [h, h'] using Run.dataText_ne chosen
    · exact Run.dataText_injective.eq_iff

end Artifact

end Flowchart
