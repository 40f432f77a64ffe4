import Flowchart.Tree.Tags
import Mathlib.Data.List.Basic
import Mathlib.Data.Option.Basic

set_option relaxedAutoImplicit false
set_option autoImplicit false

/-!
# Outlines

What is left of a syntax tree when its layout is taken away: the comments, the lines, and the text
of all nodes but those that are names. Whatever is read off a tree without quoting its text can be
read off the outline as well.

## Main definitions

* `Flowchart.Tree.isStray`: comments that play no part in the tree around them.
* `Flowchart.Tree.outline`, `Flowchart.Tree.outlines`: the outlines of a tree and of siblings.

## Main results

* `Flowchart.Tree.filter_outlines`: selecting among siblings commutes with taking outlines.
* `Flowchart.Tree.peel_outline`: so does taking off wrappers.
* `Flowchart.Tree.properties_outline`: so does looking up properties.
* `Flowchart.Tree.tags_outline`: the outline has the failure tags of the tree.

## Design

Each function that reads trees has one lemma here, which moves it inside the outline. Two trees with
the same outline are then read alike without any argument about two trees at once.
-/

namespace Flowchart.Tree

/-! ## Definitions -/

/-- The kinds of the nodes that are names. -/
def nameKinds : List String :=
  ["string", "identifier", "property_identifier"]

/-- Whether the text of a node is a name: that of a string, of an identifier, of a property, or of
the property that a member expression selects. -/
def Head.isName (h : Head) : Bool :=
  h.kind ∈ nameKinds || h.field == some "property"

/-- A node without its place in the script, and without its text unless this is a name. -/
def Head.outline (h : Head) : Head :=
  { h with row := 0, line := 0, text := if h.isName then h.text else "" }

/-- Whether a tree is a comment that stands anywhere: a leaf that fills no field. -/
def isStray (t : Tree) : Bool :=
  t.kind == "comment" && t.head.field.isNone && t.children.isEmpty

mutual

/-- A tree without its layout. -/
def outline : Tree → Tree
  | .node h cs => .node h.outline (outlines cs)

/-- Siblings without their layout and the stray comments among them. -/
def outlines : List Tree → List Tree
  | [] => []
  | c :: cs => if c.isStray then outlines cs else c.outline :: outlines cs

end

/-! ## Parts of a node -/

variable {t : Tree}

@[simp] lemma head_outline (t : Tree) : t.outline.head = t.head.outline := by
  cases t
  rfl

@[simp] lemma children_outline (t : Tree) : t.outline.children = outlines t.children := by
  cases t
  rfl

@[simp] lemma kind_outline (t : Tree) : t.outline.kind = t.kind := by
  cases t
  rfl

@[simp] lemma named_outline (t : Tree) : t.outline.named = t.named := by
  cases t
  rfl

@[simp] lemma Head.field_outline (h : Head) : h.outline.field = h.field := rfl

@[simp] lemma isCode_outline (t : Tree) : t.outline.isCode = t.isCode := by
  simp [isCode]

/-- The outline keeps the texts of names. -/
lemma text_outline (h : t.head.isName = true) : t.outline.text = t.text := by
  cases t with
  | node head cs =>
    exact if_pos h

/-- A node of one of the kinds of names is a name. -/
lemma isName_of_kind (h : t.kind ∈ nameKinds) : t.head.isName = true :=
  Bool.or_eq_true_iff.mpr (.inl (decide_eq_true h))

lemma IsStray.kind_eq (h : t.isStray = true) : t.kind = "comment" := by
  simp only [isStray, Bool.and_eq_true, beq_iff_eq] at h
  exact h.1.1

lemma IsStray.field_eq (h : t.isStray = true) : t.head.field = none := by
  simp only [isStray, Bool.and_eq_true, Option.isNone_iff_eq_none] at h
  exact h.1.2

lemma IsStray.children_eq (h : t.isStray = true) : t.children = [] := by
  simp only [isStray, Bool.and_eq_true, List.isEmpty_iff] at h
  exact h.2

lemma IsStray.isCode_eq (h : t.isStray = true) : t.isCode = false := by
  simp [isCode, kind_eq h]

/-- **Selecting among siblings** commutes with taking outlines, if stray comments are not selected
and if the selection does not look at the layout. -/
lemma filter_outlines {q : Tree → Bool} (hstray : ∀ c : Tree, c.isStray = true → q c = false)
    (hq : ∀ c : Tree, q c.outline = q c) (cs : List Tree) :
    (outlines cs).filter q = (cs.filter q).map outline := by
  induction cs with
  | nil => rfl
  | cons c cs ih =>
    by_cases hc : c.isStray = true
    · simp [outlines, hc, hstray c hc, ih]
    · by_cases hqc : q c = true <;> simp [outlines, hc, hq, hqc, ih]

/-- The first of the siblings that are selected. -/
lemma find?_outlines {q : Tree → Bool} (hstray : ∀ c : Tree, c.isStray = true → q c = false)
    (hq : ∀ c : Tree, q c.outline = q c) (cs : List Tree) :
    (outlines cs).find? q = (cs.find? q).map outline := by
  rw [← List.head?_filter, ← List.head?_filter, filter_outlines hstray hq, List.head?_map]

/-- What is collected from siblings commutes with taking outlines if it does so for each of them. -/
lemma flatMap_map_outline {f : Tree → List Tree} {cs : List Tree}
    (h : ∀ c ∈ cs, f c.outline = (f c).map outline) :
    (cs.map outline).flatMap f = (cs.flatMap f).map outline := by
  rw [List.flatMap_map, List.map_flatMap]
  exact List.flatMap_congr h

@[simp] lemma child?_outline (t : Tree) (field : String) :
    t.outline.child? field = (t.child? field).map outline := by
  rw [child?, children_outline, find?_outlines ?_ ?_, child?]
  · intro c hc
    simp [IsStray.field_eq hc]
  · simp

@[simp] lemma codeChildren_outline (t : Tree) :
    t.outline.codeChildren = t.codeChildren.map outline := by
  rw [codeChildren, children_outline, filter_outlines ?_ isCode_outline, codeChildren]
  exact fun c hc => IsStray.isCode_eq hc

@[simp] lemma firstCode?_outline (t : Tree) : t.outline.firstCode? = t.firstCode?.map outline := by
  rw [firstCode?, codeChildren_outline, List.head?_map, firstCode?]

/-! ## Expressions -/

section Expressions

variable (side : String → Option Side)

mutual

/-- **Wrappers** are taken off a tree as they are taken off its outline. -/
lemma peel_outline (t : Tree) : t.outline.peel side = (t.peel side).outline := by
  cases t with
  | node h cs =>
    have hfirst := peelFirst?_outlines cs
    have hlast := peelLast?_outlines cs
    have hkind : h.outline.kind = h.kind := rfl
    rw [outline, peel, peel, hkind]
    cases side h.kind with
    | none => rfl
    | some s =>
      cases s with
      | first =>
        rw [hfirst]
        exact Option.getD_map outline (.node h cs) _
      | last =>
        rw [hlast]
        exact Option.getD_map outline (.node h cs) _

lemma peelFirst?_outlines (cs : List Tree) :
    peelFirst? side (outlines cs) = (peelFirst? side cs).map outline := by
  cases cs with
  | nil => rfl
  | cons c cs =>
    have ihc := peel_outline c
    have ihcs := peelFirst?_outlines cs
    by_cases hc : c.isStray = true
    · simp [outlines, peelFirst?, hc, IsStray.isCode_eq hc, ihcs]
    · by_cases hcode : c.isCode = true <;> simp [outlines, peelFirst?, hc, hcode, ihc, ihcs]

lemma peelLast?_outlines (cs : List Tree) :
    peelLast? side (outlines cs) = (peelLast? side cs).map outline := by
  cases cs with
  | nil => rfl
  | cons c cs =>
    have ihc := peel_outline c
    have ihcs := peelLast?_outlines cs
    by_cases hc : c.isStray = true
    · simp [outlines, peelLast?, hc, IsStray.isCode_eq hc, ihcs]
    · by_cases hcode : c.isCode = true <;>
        simp [outlines, peelLast?, hc, hcode, ihc, ihcs]

end

end Expressions

@[simp] lemma unwrap_outline (t : Tree) : t.outline.unwrap = t.unwrap.outline :=
  peel_outline valueSide t

@[simp] lemma isFunction_outline (t : Tree) : t.outline.isFunction = t.isFunction := by
  simp [isFunction]

@[simp] lemma stringValue?_outline (t : Tree) : t.outline.stringValue? = t.stringValue? := by
  by_cases h : t.kind = "string"
  · have htext : t.outline.text = t.text := text_outline (isName_of_kind (by simp [h, nameKinds]))
    simp [stringValue?, h, htext]
  · simp [stringValue?, h]

@[simp] lemma arguments_outline (call : Tree) :
    call.outline.arguments = call.arguments.map outline := by
  rw [arguments, arguments, child?_outline]
  cases call.child? "arguments" with
  | none => rfl
  | some args => exact codeChildren_outline args

@[simp] lemma identifier?_outline (t : Tree) : t.outline.identifier? = t.identifier? := by
  by_cases h : t.kind = "identifier"
  · have htext : t.outline.text = t.text := text_outline (isName_of_kind (by simp [h, nameKinds]))
    simp [identifier?, h, htext]
  · simp [identifier?, h]

@[simp] lemma callee?_outline (call : Tree) : call.outline.callee? = call.callee? := by
  simp [callee?, Option.bind_map]

@[simp] lemma elements_map_outline (array : Option Tree) :
    elements (array.map outline) = (elements array).map outline := by
  cases array with
  | none => rfl
  | some t => exact codeChildren_outline t

/-! ## Object literals -/

@[simp] lemma keyName?_outline (key : Tree) : key.outline.keyName? = key.keyName? := by
  by_cases h : key.kind ∈ ["property_identifier", "identifier"]
  · have hname : key.kind ∈ nameKinds := by
      simp only [nameKinds, List.mem_cons] at h ⊢
      tauto
    simp [keyName?, h, text_outline (isName_of_kind hname)]
  · simp [keyName?, h]

@[simp] lemma propertyName?_outline (property : Tree) :
    property.outline.propertyName? = property.propertyName? := by
  simp [propertyName?, Option.bind_map]

/-- **The properties** of an object literal are those of its outline. -/
@[simp] lemma properties_outline (object : Tree) (name : String) :
    object.outline.properties name = (object.properties name).map outline := by
  simp [properties, List.filter_map, Function.comp_def]

@[simp] lemma propertyValue?_outline (object : Tree) (name : String) :
    object.outline.propertyValue? name = (object.propertyValue? name).map outline := by
  simp only [propertyValue?, properties_outline, List.find?_map, Function.comp_def, kind_outline,
    Option.bind_map, child?_outline, Option.map_bind]

@[simp] lemma arrayProperty?_outline (object : Tree) (name : String) :
    object.outline.arrayProperty? name = (object.arrayProperty? name).map outline := by
  simp [arrayProperty?, Option.filter_map, Function.comp_def]

lemma ownFunction?_outline (property : Tree) :
    property.outline.ownFunction? = property.ownFunction?.map outline := by
  by_cases h : property.kind = "method_definition" <;>
    simp [ownFunction?, h, Option.filter_map, Function.comp_def]

@[simp] lemma functionProperty?_outline (object : Tree) (name : String) :
    object.outline.functionProperty? name = (object.functionProperty? name).map outline := by
  simp [functionProperty?, List.findSome?_map, Function.comp_def, ownFunction?_outline,
    List.map_findSome?]

/-! ## Failure tags -/

@[simp] lemma objectTag?_outline (object : Tree) :
    object.outline.objectTag? = object.objectTag? := by
  simp [objectTag?, List.findSome?_map, Function.comp_def, Option.bind_map]

@[simp] lemma ownTag?_outline (t : Tree) : t.outline.ownTag? = t.ownTag? := by
  simp [ownTag?, List.head?_map, Option.bind_map]

/-- A stray comment carries no tag. -/
lemma IsStray.filterMap_preorder (h : t.isStray = true) : t.preorder.filterMap ownTag? = [] := by
  have hkind := kind_eq h
  have hchildren := children_eq h
  cases t with
  | node head cs =>
    obtain rfl : cs = [] := hchildren
    simp [preorder, forestPreorder, ownTag?, hkind]

mutual

/-- The calls in a tree carry the tags of those in its outline, in the same order. -/
lemma filterMap_preorder_outline (t : Tree) :
    t.outline.preorder.filterMap ownTag? = t.preorder.filterMap ownTag? := by
  cases t with
  | node h cs =>
    have hown := ownTag?_outline (.node h cs)
    have hforest := filterMap_forestPreorder_outlines cs
    rw [outline] at hown ⊢
    rw [preorder, preorder, List.filterMap_cons, List.filterMap_cons, hown, hforest]

lemma filterMap_forestPreorder_outlines (cs : List Tree) :
    (forestPreorder (outlines cs)).filterMap ownTag? =
      (forestPreorder cs).filterMap ownTag? := by
  cases cs with
  | nil => rfl
  | cons c cs =>
    have ihc := filterMap_preorder_outline c
    have ihcs := filterMap_forestPreorder_outlines cs
    by_cases hc : c.isStray = true
    · by_cases hnamed : c.named = true <;>
        simp [outlines, forestPreorder, hc, hnamed, ihcs, IsStray.filterMap_preorder hc]
    · by_cases hnamed : c.named = true <;>
        simp [outlines, forestPreorder, hc, hnamed, ihc, ihcs]

end

/-- **The tags** in a tree are those in its outline. -/
@[simp] lemma tags_outline (t : Tree) : t.outline.tags = t.tags := by
  rw [tags, filterMap_preorder_outline, tags]

/-! ## Two trees with one outline -/

/-- **What can be read off outlines** is the same for two trees with the same outline. -/
lemma congr_of_outline {α : Type} {f : Tree → α} {t t' : Tree} (hf : ∀ t, f t.outline = f t)
    (h : t.outline = t'.outline) : f t = f t' := by
  rw [← hf t, h, hf t']

/-- The tags of a guard, by what an identifier leads to. -/
lemma guardTags_eq (root guard : Tree) :
    root.guardTags guard =
      if guard.kind = "identifier" then
        (root.initializer? guard.text).elim [] fun value =>
          if value.kind = "identifier" then [] else value.tags
      else if guard.isFunction then guard.tags
      else [] := by
  unfold guardTags
  cases root.initializer? guard.text <;> rfl

/-- What an initializer has to say can be read off its outline. -/
lemma elim_tags_outline (initializer : Option Tree) :
    (initializer.map outline).elim [] (fun value =>
      if value.kind = "identifier" then [] else value.tags) =
    initializer.elim [] fun value => if value.kind = "identifier" then [] else value.tags := by
  cases initializer <;> simp

/-- **The tags of a guard** are the same in two scripts, if the guards have the same outline and a
variable that the guards name has initializers with the same outline, or none in both scripts. -/
lemma guardTags_congr {root root' guard guard' : Tree} (h : guard.outline = guard'.outline)
    (hinitializer : ∀ v ∈ guard.identifier?,
      (root.initializer? v).map outline = (root'.initializer? v).map outline) :
    root.guardTags guard = root'.guardTags guard' := by
  have hkind : guard.kind = guard'.kind := congr_of_outline kind_outline h
  rw [guardTags_eq, guardTags_eq, ← hkind]
  by_cases hid : guard.kind = "identifier"
  · have hname : guard.identifier? = guard'.identifier? := congr_of_outline identifier?_outline h
    have htext : guard.text = guard'.text := by
      simpa [identifier?, ← hkind, hid] using hname
    have hvalue := hinitializer guard.text (by simp [identifier?, hid])
    rw [if_pos hid, if_pos hid, ← htext, ← elim_tags_outline, hvalue, elim_tags_outline]
  · have hfunction : guard.isFunction = guard'.isFunction := congr_of_outline isFunction_outline h
    have htags : guard.tags = guard'.tags := congr_of_outline tags_outline h
    rw [if_neg hid, if_neg hid, hfunction, htags]

end Flowchart.Tree
