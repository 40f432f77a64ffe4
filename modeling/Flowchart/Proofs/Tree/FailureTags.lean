import Flowchart.Proofs.Text.Distinct
import Flowchart.Proofs.Tree.Outline
import Flowchart.Proofs.Tree.Traversal

set_option relaxedAutoImplicit false
set_option autoImplicit false

/-!
# Failure tags in trees

The tags in a tree are those of the calls in it, at any depth, each where it stands first. They can
be found part by part: first the tag that the tree carries itself, then those of its named children
from left to right.

## Main definitions

* `Flowchart.Tree.IsTagPair`: the pairs of an object literal that hold a tag.
* `Flowchart.Tree.Carries`: the calls that carry a tag.
* `Flowchart.Tree.Initializes`: the initializers of variables at the top level of a script.
* `Flowchart.Tree.Reports`: the tags that a guard reports.

## Main results

* `Flowchart.Tree.ownTag?_eq_some_iff`: the tag of a call is the one that it carries.
* `Flowchart.Tree.tags_eq`: the tags in a tree by those of its children.
* `Flowchart.Tree.guardTags_eq_iff`: the tags of a guard are those that it reports.
* `Flowchart.Tree.tags_exact`: all of this in one statement.
-/

namespace Flowchart.Tree

/-! ## Tags of calls -/

/-- Whether a key spells a name, as an identifier or as a string in quotes. -/
inductive Spells (key : Tree) (name : String) : Prop where
  | identifier : key.kind ∈ ["property_identifier", "identifier"] → key.text = name →
    Spells key name
  | quoted : key.stringValue? = some name → Spells key name

/-- Whether a part of an object literal is a pair with the key `tag`, the value of which is a plain
string when parentheses and type assertions are taken off. -/
inductive IsTagPair (pair : Tree) (tag : String) : Prop where
  | of_parts {key value string : Tree} :
    pair.kind = "pair" → pair.child? "key" = some key → key.Spells "tag" →
    pair.child? "value" = some value → Wraps value string → string.stringValue? = some tag →
    IsTagPair pair tag

/-- Whether a tree is a call that carries a tag: its first argument is an object literal when
parentheses and type assertions are taken off, and the first pair of the literal that holds a tag
holds this one. -/
inductive Carries (call : Tree) (tag : String) : Prop where
  | of_parts {first object pair : Tree} {more before behind : List Tree} :
    call.kind = "call_expression" → call.arguments = first :: more →
    Wraps first object → object.kind = "object" →
    object.codeChildren = before ++ pair :: behind → pair.IsTagPair tag →
    (∀ p ∈ before, ∀ other, ¬ p.IsTagPair other) → Carries call tag

variable {t v key pair : Tree} {name tag : String}

/-- A plain string is a string. -/
lemma kind_of_stringValue? (h : t.stringValue? = some tag) : t.kind = "string" := by
  unfold stringValue? at h
  split_ifs at h with hkind
  exact hkind

/-- Strings and object literals are around nothing. -/
lemma wrapped?_eq_none (h : t.kind = "string" ∨ t.kind = "object") : t.wrapped? = none := by
  rcases h with h | h <;> simp [wrapped?, valueSide, h]

/-- The name of a key is the one that it spells. -/
lemma keyName?_eq_some_iff : key.keyName? = some name ↔ key.Spells name := by
  unfold keyName?
  split_ifs with hkind
  · refine ⟨fun h => .identifier hkind (Option.some.inj h), fun h => ?_⟩
    cases h with
    | identifier _ htext => rw [htext]
    | quoted hstring =>
      rw [kind_of_stringValue? hstring] at hkind
      exact absurd hkind (by decide)
  · refine ⟨.quoted, fun h => ?_⟩
    cases h with
    | identifier hidentifier _ => exact absurd hidentifier hkind
    | quoted hstring => exact hstring

/-- A plain string in wrappers is the value of the tree. -/
lemma stringValue?_unwrap_iff :
    t.unwrap.stringValue? = some tag ↔
      ∃ string, Wraps t string ∧ string.stringValue? = some tag := by
  refine ⟨fun h => ⟨t.unwrap, t.wraps_unwrap.1, h⟩, ?_⟩
  rintro ⟨string, hwraps, hstring⟩
  have hnone := wrapped?_eq_none (.inl (kind_of_stringValue? hstring))
  rw [unwrap_eq_iff.mpr ⟨hwraps, hnone⟩, hstring]

/-- The tag of a part of an object literal. -/
def pairTag? (pair : Tree) : Option String :=
  if pair.kind = "pair" ∧ pair.propertyName? = some "tag" then
    (pair.child? "value").bind fun v => v.unwrap.stringValue?
  else none

/-- A part of an object literal has a tag if it is a pair that holds it. -/
lemma pairTag?_eq_some_iff : pair.pairTag? = some tag ↔ pair.IsTagPair tag := by
  have hname : pair.kind = "pair" → (pair.propertyName? = some "tag" ↔
      ∃ key, pair.child? "key" = some key ∧ key.Spells "tag") := by
    intro hkind
    simp only [propertyName?, hkind, if_true, Option.bind_eq_some_iff, keyName?_eq_some_iff]
  simp only [pairTag?, Option.ite_none_right_eq_some, Option.bind_eq_some_iff,
    stringValue?_unwrap_iff]
  constructor
  · rintro ⟨⟨hkind, hproperty⟩, value, hvalue, string, hwraps, hstring⟩
    obtain ⟨key, hkey, hspells⟩ := (hname hkind).mp hproperty
    exact .of_parts hkind hkey hspells hvalue hwraps hstring
  · rintro @⟨key, value, string, hkind, hkey, hspells, hvalue, hwraps, hstring⟩
    exact ⟨⟨hkind, (hname hkind).mpr ⟨key, hkey, hspells⟩⟩, value, hvalue, string, hwraps, hstring⟩

/-- **The tag of a call** is the one that it carries. -/
lemma ownTag?_eq_some_iff : t.ownTag? = some tag ↔ t.Carries tag := by
  have hobject : ∀ object : Tree, object.objectTag? = some tag ↔
      ∃ before pair behind, object.codeChildren = before ++ pair :: behind ∧ pair.IsTagPair tag ∧
        ∀ p ∈ before, ∀ other, ¬ p.IsTagPair other := by
    intro object
    have hpairs : object.objectTag? = object.codeChildren.findSome? pairTag? := rfl
    simp only [hpairs, List.findSome?_eq_some_iff, pairTag?_eq_some_iff,
      Option.eq_none_iff_forall_ne_some, ne_eq]
  simp only [ownTag?, Option.ite_none_right_eq_some, Option.bind_eq_some_iff, hobject,
    List.head?_eq_some_iff]
  constructor
  · rintro ⟨hcall, first, ⟨more, harguments⟩, hkind, before, pair, behind, hcode, hpair, hnone⟩
    exact .of_parts hcall harguments first.wraps_unwrap.1 hkind hcode hpair hnone
  · rintro @⟨first, object, pair, more, before, behind, hcall, harguments, hwraps, hkind, hcode,
      hpair, hnone⟩
    have hunwrap := unwrap_eq_iff.mpr ⟨hwraps, wrapped?_eq_none (.inr hkind)⟩
    rw [← hunwrap] at hkind hcode
    exact ⟨hcall, first, ⟨more, harguments⟩, hkind, before, pair, behind, hcode, hpair, hnone⟩

/-! ## Tags in a tree -/

/-- The tags so far, and behind them the tag of a node if it carries one that is new. -/
def collect (tags : List String) (t : Tree) : List String :=
  match t.ownTag? with
  | some tag => keepNew tags tag
  | none => tags

/-- Collecting tags from nodes keeps what is new among the tags that they carry. -/
lemma foldl_collect (nodes : List Tree) (tags : List String) :
    nodes.foldl collect tags = (nodes.filterMap ownTag?).foldl keepNew tags := by
  induction nodes generalizing tags with
  | nil => rfl
  | cons t nodes ih =>
    rw [List.foldl_cons, ih, List.filterMap_cons, collect]
    cases t.ownTag? <;> rfl

/-- **Collecting tags** along a traversal gives those in the tree. -/
lemma foldl_collect_visited (t : Tree) :
    (Traversal.start t).visited.foldl collect [] = t.tags := by
  rw [Traversal.visited_start, foldl_collect, foldl_keepNew, List.nil_append,
    List.filter_eq_self.mpr (by simp), tags]

/-- **The tags in a tree** are its own and those of its named children, each where it stands first.
-/
lemma tags_eq (t : Tree) :
    t.tags = (t.ownTag?.toList ++ t.namedChildren.flatMap tags).eraseDups := by
  have hcalls : t.preorder.filterMap ownTag? =
      t.ownTag?.toList ++ t.namedChildren.flatMap fun c => c.preorder.filterMap ownTag? := by
    rw [preorder_eq, List.filterMap_cons, List.filterMap_flatMap]
    cases t.ownTag? <;> rfl
  have hparts := eraseDups_append_flatMap t.ownTag?.toList
    (fun c => c.preorder.filterMap ownTag?) t.namedChildren
  rw [tags, hcalls, ← hparts]
  rfl

/-- **A tag is in a tree** if and only if some call carries it that is reached from the tree. -/
lemma mem_tags_iff : tag ∈ t.tags ↔ ∃ call, t.Reaches call ∧ call.Carries tag := by
  simp only [tags, List.mem_eraseDups, List.mem_filterMap, mem_preorder_iff, ownTag?_eq_some_iff]

/-! ## Tags of guards -/

/-- Whether a declarator stands at the top level of a script: in a declaration of variables that is
a statement of the script or that such a statement exports. -/
inductive IsTopDeclarator (root declarator : Tree) : Prop where
  | plain {statement : Tree} :
    statement ∈ root.codeChildren →
    statement.kind ∈ ["lexical_declaration", "variable_declaration"] →
    declarator ∈ statement.codeChildren → declarator.kind = "variable_declarator" →
    IsTopDeclarator root declarator
  | exported {statement declaration : Tree} :
    statement ∈ root.codeChildren → statement.kind = "export_statement" →
    statement.child? "declaration" = some declaration →
    declaration.kind ∈ ["lexical_declaration", "variable_declaration"] →
    declarator ∈ declaration.codeChildren → declarator.kind = "variable_declarator" →
    IsTopDeclarator root declarator

/-- Whether a declarator declares a variable. -/
def Declares (declarator : Tree) (name : String) : Prop :=
  ∃ v, declarator.child? "name" = some v ∧ v.text = name

/-- Whether a tree is the initializer of a variable: that of the first declarator of the variable at
the top level of a script that has one. -/
inductive Initializes (root : Tree) (name : String) (value : Tree) : Prop where
  | of_parts {declarator : Tree} {before behind : List Tree} :
    root.topDeclarators = before ++ declarator :: behind →
    declarator.Declares name → declarator.child? "value" = some value →
    (∀ d ∈ before, d.Declares name → d.child? "value" = none) → Initializes root name value

/-- Whether a guard of a script reports some tags: a function literal reports those in it, and the
name of a variable those in its initializer, unless that is a name again. No other guard reports any
tag. -/
inductive Reports (root guard : Tree) : List String → Prop where
  | literal : guard.isFunction = true → Reports root guard guard.tags
  | named {value : Tree} :
    guard.kind = "identifier" → root.Initializes guard.text value → value.kind ≠ "identifier" →
    Reports root guard value.tags
  | renamed {value : Tree} :
    guard.kind = "identifier" → root.Initializes guard.text value → value.kind = "identifier" →
    Reports root guard []
  | unknown :
    guard.kind = "identifier" → (∀ value, ¬ root.Initializes guard.text value) →
    Reports root guard []
  | other : guard.isFunction = false → guard.kind ≠ "identifier" → Reports root guard []

variable {root guard declarator value : Tree}

/-- The declarators that are listed are those at the top level. -/
lemma mem_topDeclarators_iff : declarator ∈ root.topDeclarators ↔
    root.IsTopDeclarator declarator := by
  simp only [topDeclarators, List.mem_flatMap, List.mem_filterMap]
  constructor
  · rintro ⟨declaration, ⟨statement, hstatement, hdeclaration⟩, hmem⟩
    split_ifs at hmem with hkind
    · obtain ⟨hcode, hdeclarator⟩ := List.mem_filter.mp hmem
      unfold declaration? at hdeclaration
      split_ifs at hdeclaration with hexport
      · exact .exported hstatement hexport hdeclaration hkind hcode (beq_iff_eq.mp hdeclarator)
      · cases hdeclaration
        exact .plain hstatement hkind hcode (beq_iff_eq.mp hdeclarator)
    · cases hmem
  · have hlisted : ∀ declaration : Tree,
        declaration.kind ∈ ["lexical_declaration", "variable_declaration"] →
        declarator ∈ declaration.codeChildren → declarator.kind = "variable_declarator" →
        declarator ∈ if declaration.kind ∈ ["lexical_declaration", "variable_declaration"] then
          declaration.codeChildren.filter fun c => c.kind == "variable_declarator" else [] := by
      intro declaration hkind hcode hdeclarator
      rw [if_pos hkind, List.mem_filter]
      exact ⟨hcode, beq_iff_eq.mpr hdeclarator⟩
    rintro (@⟨statement, hstatement, hkind, hcode, hdeclarator⟩ |
      @⟨statement, declaration, hstatement, hexport, hdeclaration, hkind, hcode, hdeclarator⟩)
    · have hexport : statement.kind ≠ "export_statement" := fun h => by
        rw [h] at hkind
        exact absurd hkind (by decide)
      exact ⟨statement, ⟨statement, hstatement, if_neg hexport⟩, hlisted _ hkind hcode hdeclarator⟩
    · exact ⟨declaration, ⟨statement, hstatement, (if_pos hexport).trans hdeclaration⟩,
        hlisted _ hkind hcode hdeclarator⟩

/-- **The initializer of a variable** is that of its first declarator that has one. -/
lemma initializer?_eq_some_iff :
    root.initializer? name = some value ↔ root.Initializes name value := by
  have hdeclares : ∀ d : Tree, (d.child? "name").map text = some name ↔ d.Declares name :=
    fun d => Option.map_eq_some_iff
  simp only [initializer?, List.findSome?_eq_some_iff, Option.ite_none_right_eq_some, hdeclares,
    ite_eq_right_iff]
  constructor
  · rintro ⟨before, declarator, behind, hsplit, ⟨hname, hvalue⟩, hbefore⟩
    exact .of_parts hsplit hname hvalue hbefore
  · rintro @⟨declarator, before, behind, hsplit, hname, hvalue, hbefore⟩
    exact ⟨before, declarator, behind, hsplit, ⟨hname, hvalue⟩, hbefore⟩

/-- A guard reports the tags that are read off it. -/
lemma reports_guardTags (root guard : Tree) : root.Reports guard (root.guardTags guard) := by
  rw [guardTags_eq]
  split_ifs with hname hfunction
  · cases hvalue : root.initializer? guard.text with
    | none =>
      refine .unknown hname fun value h => ?_
      rw [initializer?_eq_some_iff.mpr h] at hvalue
      cases hvalue
    | some value =>
      have hinitializes := initializer?_eq_some_iff.mp hvalue
      rw [Option.elim_some]
      split_ifs with hkind
      · exact .renamed hname hinitializes hkind
      · exact .named hname hinitializes hkind
  · exact .literal hfunction
  · exact .other (by simpa using hfunction) hname

/-- **The tags of a guard** are those that it reports, and no others. -/
lemma guardTags_eq_iff {tags : List String} :
    root.guardTags guard = tags ↔ root.Reports guard tags := by
  have hfunction : guard.isFunction = true → guard.kind ≠ "identifier" := fun h hname => by
    simp [isFunction, functionKinds, hname] at h
  refine ⟨fun h => h ▸ reports_guardTags root guard, fun h => ?_⟩
  rw [guardTags_eq]
  cases h with
  | literal h => rw [if_neg (hfunction h), if_pos h]
  | named hname hvalue hkind =>
    rw [if_pos hname, initializer?_eq_some_iff.mpr hvalue, Option.elim_some, if_neg hkind]
  | renamed hname hvalue hkind =>
    rw [if_pos hname, initializer?_eq_some_iff.mpr hvalue, Option.elim_some, if_pos hkind]
  | unknown hname hnone =>
    have hvalue : root.initializer? guard.text = none :=
      Option.eq_none_iff_forall_ne_some.mpr fun value h =>
        hnone value (initializer?_eq_some_iff.mp h)
    rw [if_pos hname, hvalue, Option.elim_none]
  | other h hname => rw [if_neg hname, if_neg (by simp [h])]

/-- **Failure tags are collected completely, once each and in order.** The tags in a tree are what a
traversal collects that keeps each new tag. None of them stands twice, and they are the tag that the
tree carries itself and then the tags of its named children, each where it stands first. So a tag is
listed if and only if some call carries it that is reached from the tree. A guard has exactly the
tags that it reports, and the declarators that it is looked up in are those at the top level.

**Proof sketch.** A traversal visits the preorder of the tree (`Traversal.visited_start`), which
splits into the tree itself and the preorders of its children, and repetitions may be left out in
each part before they are left out in the whole (`eraseDups_append_flatMap`). -/
theorem tags_exact (root guard t : Tree) :
    (Traversal.start t).visited.foldl collect [] = t.tags ∧ t.tags.Nodup ∧
      t.tags = (t.ownTag?.toList ++ t.namedChildren.flatMap tags).eraseDups ∧
      (∀ tag, t.ownTag? = some tag ↔ t.Carries tag) ∧
      (∀ tag, tag ∈ t.tags ↔ ∃ call, t.Reaches call ∧ call.Carries tag) ∧
      (∀ tags, root.guardTags guard = tags ↔ root.Reports guard tags) ∧
      ∀ declarator, declarator ∈ root.topDeclarators ↔ root.IsTopDeclarator declarator :=
  ⟨t.foldl_collect_visited, nodup_eraseDups _, t.tags_eq, fun _ => ownTag?_eq_some_iff,
    fun _ => mem_tags_iff, fun _ => guardTags_eq_iff, fun _ => mem_topDeclarators_iff⟩

end Flowchart.Tree
