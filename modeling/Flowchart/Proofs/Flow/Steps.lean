import Flowchart.Flow.Steps
import Flowchart.Proofs.Tree.Outline
import Flowchart.Proofs.Tree.Wrappers
import Mathlib.Data.List.Basic

set_option relaxedAutoImplicit false
set_option autoImplicit false

/-!
# Calls of steps

The calls of `step` that an expression of a scenario shows. The labels of the steps in an expression
are those of its calls, so all that is known of single calls carries over to expressions.

## Main definitions

* `Flowchart.Tree.stepCalls`: the calls of `step` in an expression, in order.

## Main results

* `Flowchart.Tree.stepLabels_eq_map`: each label in an expression is that of a call.
* `Flowchart.Tree.stepCalls_outline`: the calls of an expression can be read off its outline.
-/

namespace Flowchart.Tree

variable {t : Tree}

/-! ## Calls in expressions -/

/-- The calls of `step` in an expression, in their order: the expression itself, and those in what
it pushes to something and in the elements of an array. -/
def stepCalls (t : Tree) : List Tree :=
  if t.unwrap.kind = "call_expression" then
    if t.unwrap.callee? = some "step" then [t.unwrap]
    else if t.unwrap.isPush then t.unwrap.arguments.attach.flatMap fun a => stepCalls a.1
    else []
  else if t.unwrap.kind = "array" then t.unwrap.codeChildren.attach.flatMap fun c => stepCalls c.1
  else []
termination_by sizeOf t
decreasing_by
  · exact Nat.lt_of_lt_of_le (sizeOf_lt_of_mem_arguments a.2) (sizeOf_unwrap_le t)
  · exact Nat.lt_of_lt_of_le (sizeOf_lt_of_mem_codeChildren c.2) (sizeOf_unwrap_le t)

/-- The calls in an expression by the kind of its value. -/
lemma stepCalls_eq (t : Tree) :
    t.stepCalls =
      if t.unwrap.kind = "call_expression" then
        if t.unwrap.callee? = some "step" then [t.unwrap]
        else if t.unwrap.isPush then t.unwrap.arguments.flatMap stepCalls
        else []
      else if t.unwrap.kind = "array" then t.unwrap.codeChildren.flatMap stepCalls
      else [] := by
  rw [stepCalls]
  simp only [List.flatMap_subtype, List.unattach_attach]

/-- The calls in an expression are those in its value. -/
lemma stepCalls_eq_of_unwrap {t t' : Tree} (h : t.unwrap = t'.unwrap) :
    t.stepCalls = t'.stepCalls := by
  rw [stepCalls_eq, stepCalls_eq t', h]

/-! ## Labels in expressions -/

section Labels

variable (names : Names)

/-- The labels in the first code tree among siblings. -/
lemma firstStepLabels_eq (cs : List Tree) :
    firstStepLabels names cs = (cs.filter isCode).head?.elim [] (stepLabels names) := by
  induction cs with
  | nil => rfl
  | cons c cs ih =>
    rw [firstStepLabels, List.filter_cons, ih]
    split_ifs <;> rfl

/-- The labels in the last code tree among siblings. -/
lemma lastStepLabels_eq (cs : List Tree) :
    lastStepLabels names cs = (cs.filter isCode).getLast?.elim [] (stepLabels names) := by
  induction cs with
  | nil => rfl
  | cons c cs ih =>
    rw [lastStepLabels, ih]
    by_cases hcs : cs.any isCode = true
    · have hne : cs.filter isCode ≠ [] := by simpa using hcs
      rw [if_pos hcs, List.filter_cons]
      split_ifs
      · rw [List.getLast?_cons_of_ne_nil hne]
      · rfl
    · have hnil : cs.filter isCode = [] := by simpa using hcs
      rw [if_neg hcs, List.filter_cons, hnil]
      split_ifs <;> rfl

/-- The labels in all code trees among siblings. -/
lemma allStepLabels_eq (cs : List Tree) :
    allStepLabels names cs = (cs.filter isCode).flatMap (stepLabels names) := by
  induction cs with
  | nil => rfl
  | cons c cs ih =>
    rw [allStepLabels, List.filter_cons, ih]
    split_ifs <;> simp

/-- The labels in the arguments of a call. -/
lemma argumentStepLabels_eq (call : Tree) :
    argumentStepLabels names call.children = call.arguments.flatMap (stepLabels names) := by
  rw [arguments, child?]
  induction call.children with
  | nil => rfl
  | cons c cs ih =>
    cases c with
    | node h cs' =>
      by_cases hf : h.field = some "arguments"
      · simp [argumentStepLabels, hf, allStepLabels_eq, codeChildren]
      · simp [argumentStepLabels, hf, ih]

/-- The labels in an expression by the kind of the expression. A wrapper has those of what it is
around. -/
lemma stepLabels_eq (t : Tree) :
    t.stepLabels names =
      if (valueSide t.kind).isSome then t.wrapped?.elim [] (stepLabels names)
      else if t.kind = "call_expression" then
        if t.callee? = some "step" then [t.stepLabel names]
        else if t.isPush then t.arguments.flatMap (stepLabels names)
        else []
      else if t.kind = "array" then t.codeChildren.flatMap (stepLabels names)
      else [] := by
  have hfirst := firstStepLabels_eq names t.children
  have hlast := lastStepLabels_eq names t.children
  have hall := allStepLabels_eq names t.children
  have harguments := argumentStepLabels_eq names t
  cases t with
  | node h cs =>
    have hkind : (node h cs).kind = h.kind := rfl
    simp only [children_node] at hfirst hlast hall harguments
    rw [stepLabels, hfirst, hlast, hall, harguments, wrapped?, hkind]
    cases valueSide h.kind with
    | none => rfl
    | some side => cases side <;> rfl

/-- A wrapper around nothing has no calls: it is neither a call nor an array. -/
lemma stepCalls_eq_nil (h : (valueSide t.kind).isSome = true) (hvalue : t.unwrap = t) :
    t.stepCalls = [] := by
  have hcall : t.kind ≠ "call_expression" := fun heq => by
    rw [heq] at h
    simp [valueSide] at h
  have harray : t.kind ≠ "array" := fun heq => by
    rw [heq] at h
    simp [valueSide] at h
  rw [stepCalls_eq, hvalue, if_neg hcall, if_neg harray]

/-- **The labels of the steps** in an expression are those of its calls.

**Proof sketch.** By induction on the size of the expression. A wrapper has the labels and the calls
of what it is around, or none if it is around nothing. -/
theorem stepLabels_eq_map (t : Tree) : t.stepLabels names = t.stepCalls.map (stepLabel names) := by
  have hparts : ∀ parts : List Tree, (∀ c ∈ parts, sizeOf c < sizeOf t) →
      parts.flatMap (stepLabels names) = (parts.flatMap stepCalls).map (stepLabel names) := by
    intro parts hsize
    rw [List.map_flatMap]
    exact List.flatMap_congr fun c hc => stepLabels_eq_map c
  have hvalue := t.unwrap_eq
  rw [stepLabels_eq]
  by_cases hside : (valueSide t.kind).isSome = true
  · rw [if_pos hside]
    cases hwrapped : t.wrapped? with
    | none =>
      rw [hwrapped] at hvalue
      rw [stepCalls_eq_nil hside hvalue]
      rfl
    | some c =>
      have hc := sizeOf_lt_of_mem_codeChildren (mem_codeChildren_of_wrapped? hwrapped)
      rw [hwrapped] at hvalue
      have hsame : t.unwrap = c.unwrap := hvalue
      rw [stepCalls_eq_of_unwrap hsame]
      exact stepLabels_eq_map c
  · have hnone : t.wrapped? = none := by
      simp only [Option.isSome_iff_ne_none, ne_eq, not_not] at hside
      rw [wrapped?, hside]
    rw [hnone] at hvalue
    have hself : t.unwrap = t := hvalue
    rw [if_neg hside, stepCalls_eq, hself,
      hparts t.arguments fun a ha => sizeOf_lt_of_mem_arguments ha,
      hparts t.codeChildren fun c hc => sizeOf_lt_of_mem_codeChildren hc]
    split_ifs <;> rfl
termination_by sizeOf t
decreasing_by
  · exact hsize c hc
  · exact hc

end Labels

/-! ## Calls in outlines -/

@[simp] lemma isPush_outline (call : Tree) : call.outline.isPush = call.isPush := by
  unfold isPush
  rw [child?_outline]
  cases call.child? "function" with
  | none => rfl
  | some f =>
    have hproperty : (f.outline.child? "property").map text = (f.child? "property").map text := by
      rw [child?_outline, Option.map_map]
      refine Option.map_congr fun p hp => text_outline ?_
      have hfield := List.find?_some hp
      simp only [Head.isName, hfield, Bool.or_true]
    simp only [Option.map_some, kind_outline, hproperty]

/-- **The calls in an expression** are found in its outline. -/
lemma stepCalls_outline (t : Tree) : t.outline.stepCalls = t.stepCalls.map outline := by
  have harguments := flatMap_map_outline fun a (ha : a ∈ t.unwrap.arguments) => stepCalls_outline a
  have hchildren := flatMap_map_outline fun c (hc : c ∈ t.unwrap.codeChildren) =>
    stepCalls_outline c
  rw [stepCalls_eq, stepCalls_eq t, unwrap_outline, kind_outline, callee?_outline, isPush_outline,
    arguments_outline, codeChildren_outline, harguments, hchildren]
  split_ifs <;> rfl
termination_by sizeOf t
decreasing_by
  · exact Nat.lt_of_lt_of_le (sizeOf_lt_of_mem_arguments ha) (sizeOf_unwrap_le t)
  · exact Nat.lt_of_lt_of_le (sizeOf_lt_of_mem_codeChildren hc) (sizeOf_unwrap_le t)

end Flowchart.Tree
