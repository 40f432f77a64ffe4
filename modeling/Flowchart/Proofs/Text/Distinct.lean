import Mathlib.Data.List.Basic
import Mathlib.Data.List.Nodup

set_option relaxedAutoImplicit false
set_option autoImplicit false

/-!
# Lists without repetitions

What is left of a list when every element is kept where it stands first. The order of what is left
is that of first appearance, and what is left of several lists in a row can be found list by list.

## Main definitions

* `Flowchart.keepNew`: an element is put behind a list unless it is there already.

## Main results

* `Flowchart.filter_eraseDups`: selecting commutes with leaving out repetitions.
* `Flowchart.eraseDups_append_flatMap`: repetitions can be left out part by part.
* `Flowchart.pairwise_idxOf_eraseDups`: what is left stands in the order of first appearance.
* `Flowchart.foldl_keepNew`: keeping what is new leaves out the repetitions.
-/

namespace Flowchart

variable {α β : Type} [DecidableEq α]

/-- No element stands twice in a list without its repetitions. -/
lemma nodup_eraseDups : ∀ xs : List α, xs.eraseDups.Nodup
  | [] => List.nodup_nil
  | x :: xs => by
    rw [List.eraseDups_cons, List.nodup_cons]
    exact ⟨by simp, nodup_eraseDups (xs.filter fun y => !y == x)⟩
termination_by xs => xs.length
decreasing_by exact Nat.lt_succ_of_le (List.length_filter_le _ _)

/-- **Selecting** from a list commutes with leaving out repetitions. -/
lemma filter_eraseDups (p : α → Bool) : ∀ xs : List α,
    xs.eraseDups.filter p = (xs.filter p).eraseDups
  | [] => rfl
  | x :: xs => by
    have hrest := filter_eraseDups p (xs.filter fun y => !y == x)
    rw [List.eraseDups_cons, List.filter_cons, List.filter_cons, hrest, List.filter_filter]
    split_ifs with hx
    · rw [List.eraseDups_cons, List.filter_filter]
      simp only [Bool.and_comm]
    · -- what equals `x` is not selected anyway
      refine congrArg List.eraseDups (List.filter_congr fun y _ => ?_)
      by_cases hy : y = x
      · simp [hy, hx]
      · simp [hy]
termination_by xs => xs.length
decreasing_by exact Nat.lt_succ_of_le (List.length_filter_le _ _)

/-- A list starts without its repetitions with its first element. -/
lemma eraseDups_cons_eq (x : α) (xs : List α) :
    (x :: xs).eraseDups = x :: xs.eraseDups.filter fun y => !y == x := by
  rw [List.eraseDups_cons, filter_eraseDups]

/-- What is left of two lists in a row is what is left of the first, and then what is left of the
second and is not in the first. -/
lemma eraseDups_append_eq (xs ys : List α) :
    (xs ++ ys).eraseDups = xs.eraseDups ++ ys.eraseDups.filter fun y => y ∉ xs := by
  rw [List.eraseDups_append, filter_eraseDups]
  congr 2
  simp [List.removeAll]

/-- A list without repetitions is left as it is. -/
lemma eraseDups_of_nodup {xs : List α} (h : xs.Nodup) : xs.eraseDups = xs := by
  induction xs with
  | nil => rfl
  | cons x xs ih =>
    obtain ⟨hx, hxs⟩ := List.nodup_cons.mp h
    rw [eraseDups_cons_eq, ih hxs, List.filter_eq_self.mpr]
    intro y hy
    have hne : y ≠ x := fun heq => hx (heq ▸ hy)
    simpa using hne

/-- **Repetitions can be left out part by part**, and then in the whole. -/
lemma eraseDups_flatMap (f : β → List α) (ys : List β) :
    (ys.flatMap fun y => (f y).eraseDups).eraseDups = (ys.flatMap f).eraseDups := by
  induction ys with
  | nil => rfl
  | cons y ys ih =>
    rw [List.flatMap_cons, List.flatMap_cons, eraseDups_append_eq, eraseDups_append_eq, ih,
      eraseDups_of_nodup (nodup_eraseDups (f y))]
    simp only [List.mem_eraseDups]

/-- The same behind another list. -/
lemma eraseDups_append_flatMap (xs : List α) (f : β → List α) (ys : List β) :
    (xs ++ ys.flatMap fun y => (f y).eraseDups).eraseDups = (xs ++ ys.flatMap f).eraseDups := by
  rw [eraseDups_append_eq, eraseDups_append_eq, eraseDups_flatMap]

/-- **What is left stands in the order of first appearance.** -/
lemma pairwise_idxOf_eraseDups (xs : List α) :
    xs.eraseDups.Pairwise fun x y => xs.idxOf x < xs.idxOf y := by
  induction xs with
  | nil => exact .nil
  | cons x xs ih =>
    rw [eraseDups_cons_eq, List.pairwise_cons]
    have hbehind : ∀ y ∈ xs.eraseDups.filter fun y => !y == x,
        (x :: xs).idxOf y = xs.idxOf y + 1 := by
      intro y hy
      have hne : y ≠ x := by simpa using (List.mem_filter.mp hy).2
      exact List.idxOf_cons_ne xs hne.symm
    refine ⟨fun y hy => ?_, ?_⟩
    · rw [List.idxOf_cons_self, hbehind y hy]
      exact Nat.succ_pos _
    · refine (ih.filter _).imp_of_mem fun {y z} hy hz hlt => ?_
      rw [hbehind y hy, hbehind z hz]
      exact Nat.succ_lt_succ hlt

/-! ## Keeping what is new -/

/-- An element behind a list, unless it is there already. -/
def keepNew (kept : List α) (x : α) : List α :=
  if x ∈ kept then kept else kept ++ [x]

/-- **Keeping what is new** leaves out what was kept before, and the repetitions. -/
lemma foldl_keepNew (xs kept : List α) :
    xs.foldl keepNew kept = kept ++ (xs.filter fun x => x ∉ kept).eraseDups := by
  induction xs generalizing kept with
  | nil => simp
  | cons x xs ih =>
    rw [List.foldl_cons, ih, keepNew, List.filter_cons]
    by_cases hx : x ∈ kept
    · simp [hx]
    · have hrest : (xs.filter fun y => y ∉ kept ++ [x]) =
          (xs.filter fun y => y ∉ kept).filter fun y => !y == x := by
        rw [List.filter_filter]
        refine List.filter_congr fun y _ => ?_
        by_cases hy : y = x <;> simp [hy]
      rw [if_neg hx, if_pos (by simpa using hx), hrest, List.eraseDups_cons, List.append_assoc]
      rfl

end Flowchart
