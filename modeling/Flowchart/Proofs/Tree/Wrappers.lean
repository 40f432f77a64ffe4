import Flowchart.Tree.Expression
import Mathlib.Data.List.Basic

set_option relaxedAutoImplicit false
set_option autoImplicit false

/-!
# Wrapped expressions

Parentheses and type assertions around an expression have its value. The value is found by going
down from one wrapper to the next, which ends because parts of a tree are smaller than the tree.

## Main definitions

* `Flowchart.Tree.wrapped?`: the tree that a wrapper is around.
* `Flowchart.Tree.Wraps`: an expression in parentheses and type assertions.

## Main results

* `Flowchart.Tree.unwrap_eq`: the value of a wrapper is that of what it is around.
* `Flowchart.Tree.unwrap_eq_iff`: the value is what is left when all wrappers are taken off.
-/

namespace Flowchart.Tree

variable {t v : Tree}

/-! ## Sizes of parts -/

/-- What stands among the children of a tree is smaller than the tree. -/
lemma sizeOf_lt_of_mem_children {c : Tree} (h : c ∈ t.children) : sizeOf c < sizeOf t := by
  cases t with
  | node head cs =>
    have hc : sizeOf c < sizeOf cs := List.sizeOf_lt_of_mem h
    rw [node.sizeOf_spec]
    omega

/-- What fills a field of a tree is smaller than the tree. -/
lemma sizeOf_lt_of_mem_child? {field : String} {c : Tree} (h : c ∈ t.child? field) :
    sizeOf c < sizeOf t :=
  sizeOf_lt_of_mem_children (List.mem_of_find?_eq_some h)

/-- A code child of a tree is smaller than the tree. -/
lemma sizeOf_lt_of_mem_codeChildren {c : Tree} (h : c ∈ t.codeChildren) : sizeOf c < sizeOf t :=
  sizeOf_lt_of_mem_children (List.mem_filter.mp h).1

/-- An argument of a call is smaller than the call. -/
lemma sizeOf_lt_of_mem_arguments {a : Tree} (h : a ∈ t.arguments) : sizeOf a < sizeOf t := by
  unfold arguments at h
  split at h
  · next args hargs =>
    exact Nat.lt_trans (sizeOf_lt_of_mem_codeChildren h) (sizeOf_lt_of_mem_child? hargs)
  · cases h

/-! ## Values inside wrappers -/

/-- The tree that a wrapper is around: its first code child, or the last one for a prefix assertion.
-/
def wrapped? (t : Tree) : Option Tree :=
  match valueSide t.kind with
  | some .first => t.codeChildren.head?
  | some .last => t.codeChildren.getLast?
  | none => none

/-- What a wrapper is around is one of its code children. -/
lemma mem_codeChildren_of_wrapped? {c : Tree} (h : c ∈ t.wrapped?) : c ∈ t.codeChildren := by
  unfold wrapped? at h
  split at h
  · exact List.mem_of_mem_head? h
  · exact List.mem_of_mem_getLast? h
  · cases h

/-- **The value of a tree** is that of what it is around, or the tree itself if it is no wrapper. -/
lemma unwrap_eq (t : Tree) : t.unwrap = (t.wrapped?.map unwrap).getD t := by
  cases t with
  | node head cs =>
    have hkind : (node head cs).kind = head.kind := rfl
    rw [unwrap, peel, wrapped?, hkind]
    cases valueSide head.kind with
    | none => rfl
    | some side =>
      cases side with
      | first => exact congrArg (Option.getD · _) (peelFirst?_eq valueSide cs)
      | last => exact congrArg (Option.getD · _) (peelLast?_eq valueSide cs)

/-- The value of a tree is no larger than the tree. -/
lemma sizeOf_unwrap_le (t : Tree) : sizeOf t.unwrap ≤ sizeOf t := by
  have h := t.unwrap_eq
  cases hc : t.wrapped? with
  | none =>
    rw [hc] at h
    exact Nat.le_of_eq (congrArg sizeOf h)
  | some c =>
    have hlt := sizeOf_lt_of_mem_codeChildren (mem_codeChildren_of_wrapped? hc)
    have ih := sizeOf_unwrap_le c
    rw [hc] at h
    have hvalue : t.unwrap = c.unwrap := h
    rw [hvalue]
    omega
termination_by sizeOf t

/-! ## Expressions in wrappers -/

/-- An expression with other ones around it that have its value: parentheses and type assertions, of
which the prefix one holds its type first. -/
inductive Wraps : Tree → Tree → Prop where
  | bare (t : Tree) : Wraps t t
  | first {t c v : Tree} :
    t.kind ∈ ["parenthesized_expression", "as_expression", "satisfies_expression"] →
    t.codeChildren.head? = some c → Wraps c v → Wraps t v
  | last {t c v : Tree} :
    t.kind = "type_assertion" → t.codeChildren.getLast? = some c → Wraps c v → Wraps t v

/-- A tree is around what it wraps first. -/
lemma wrapped?_of_first {c : Tree}
    (hkind : t.kind ∈ ["parenthesized_expression", "as_expression", "satisfies_expression"])
    (hc : t.codeChildren.head? = some c) : t.wrapped? = some c := by
  have hne : t.kind ≠ "type_assertion" := fun h => absurd (h ▸ hkind) (by decide)
  rw [wrapped?, valueSide, if_neg hne, if_pos hkind]
  exact hc

/-- A prefix assertion is around what it holds last. -/
lemma wrapped?_of_last {c : Tree} (hkind : t.kind = "type_assertion")
    (hc : t.codeChildren.getLast? = some c) : t.wrapped? = some c := by
  rw [wrapped?, valueSide, if_pos hkind]
  exact hc

/-- What a tree is around is held first or last, as its kind has it. -/
lemma Wraps.of_wrapped? {c : Tree} (hc : t.wrapped? = some c) (h : Wraps c v) : Wraps t v := by
  unfold wrapped? valueSide at hc
  split_ifs at hc with hlast hfirst
  · exact .last hlast hc h
  · exact .first hfirst hc h

/-- An expression in wrappers has the value of the expression. -/
lemma Wraps.unwrap_eq (h : Wraps t v) : t.unwrap = v.unwrap := by
  have hstep : ∀ {t c : Tree}, t.wrapped? = some c → t.unwrap = c.unwrap := by
    intro t c hc
    rw [Tree.unwrap_eq t, hc]
    rfl
  induction h with
  | bare t => rfl
  | first hkind hc _ ih => exact (hstep (wrapped?_of_first hkind hc)).trans ih
  | last hkind hc _ ih => exact (hstep (wrapped?_of_last hkind hc)).trans ih

/-- A tree wraps its value, which wraps nothing else. -/
lemma wraps_unwrap (t : Tree) : Wraps t t.unwrap ∧ t.unwrap.wrapped? = none := by
  rw [unwrap_eq]
  cases hc : t.wrapped? with
  | none => exact ⟨.bare t, hc⟩
  | some c =>
    have := sizeOf_lt_of_mem_codeChildren (mem_codeChildren_of_wrapped? hc)
    obtain ⟨hwraps, hnone⟩ := wraps_unwrap c
    exact ⟨.of_wrapped? hc hwraps, hnone⟩
termination_by sizeOf t

/-- **The value of a tree** is what is left when all wrappers are taken off. -/
lemma unwrap_eq_iff : t.unwrap = v ↔ Wraps t v ∧ v.wrapped? = none := by
  constructor
  · rintro rfl
    exact wraps_unwrap t
  · rintro ⟨hwraps, hnone⟩
    rw [hwraps.unwrap_eq, unwrap_eq, hnone]
    rfl

end Flowchart.Tree
