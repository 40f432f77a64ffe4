import Flowchart.Proofs.Flow.Statement
import Flowchart.Proofs.Tree.Outline

set_option relaxedAutoImplicit false
set_option autoImplicit false

/-!
# Reached statements

Which statements of a body control can get to. The statements behind one that never goes on are dead
code, and nothing is drawn for them.

## Main definitions

* `Flowchart.Tree.halts`: statements that control never gets behind.
* `Flowchart.Tree.reached`: the statements in a row that control can get to.
* `Flowchart.Tree.parts`: the statements in a statement that control can get to.
* `Flowchart.Tree.walked`: a statement with all statements in it that control can get to.

## Main results

* `Flowchart.Stmt.continues_of_halts`: control goes on nowhere behind a statement that halts.
* `Flowchart.Stmt.drawAll_reached`: nothing is drawn for dead code.
* `Flowchart.Tree.walked_outline`: the reached statements are found in the outline.
-/

namespace Flowchart

namespace Tree

/-! ## Definitions -/

/-- Whether control never gets behind a statement: the statement returns or throws, a statement in
its row halts, or both of its sides halt. -/
def halts (t : Tree) : Bool :=
  match t.form with
  | .block => t.codeChildren.attach.any fun c => c.1.halts
  | .branch =>
    (t.child? "consequence").attach.any (fun c => c.1.halts) &&
      t.alternative?.attach.any fun c => c.1.halts
  | .leave | .fail => true
  | _ => false
termination_by sizeOf t
decreasing_by
  · exact sizeOf_lt_of_mem_codeChildren c.2
  · exact sizeOf_lt_of_mem_child? c.2
  · exact sizeOf_lt_of_mem_alternative? c.2

/-- The statements in a row that control can get to: all up to the first that halts. -/
def reached : List Tree → List Tree
  | [] => []
  | c :: cs => c :: if c.halts then [] else reached cs

/-- The statements in a statement that control can get to. -/
def parts (t : Tree) : List Tree :=
  match t.form with
  | .block => reached t.codeChildren
  | .branch => (t.child? "consequence").toList ++ t.alternative?.toList
  | .loop _ => (t.child? "body").toList
  | _ => []

/-- The reached statements are among those in the row. -/
lemma reached_subset (cs : List Tree) : reached cs ⊆ cs := by
  induction cs with
  | nil => exact fun _ h => h
  | cons c cs ih =>
    rw [reached]
    split_ifs
    · exact List.cons_subset_cons c (List.nil_subset cs)
    · exact List.cons_subset_cons c ih

/-- A statement in a statement is smaller. -/
lemma sizeOf_lt_of_mem_parts {c t : Tree} (h : c ∈ t.parts) : sizeOf c < sizeOf t := by
  unfold parts at h
  split at h
  · exact sizeOf_lt_of_mem_codeChildren (reached_subset _ h)
  · rcases List.mem_append.mp h with h | h
    · exact sizeOf_lt_of_mem_child? (Option.mem_toList.mp h)
    · exact sizeOf_lt_of_mem_alternative? (Option.mem_toList.mp h)
  · exact sizeOf_lt_of_mem_child? (Option.mem_toList.mp h)
  · cases h

/-- A statement with all statements in it that control can get to. -/
def walked (t : Tree) : List Tree :=
  t :: t.parts.attach.flatMap fun c => c.1.walked
termination_by sizeOf t
decreasing_by
  exact sizeOf_lt_of_mem_parts c.2

/-! ## Equations -/

/-- Whether a statement halts, by its form. -/
lemma halts_eq (t : Tree) :
    t.halts = match t.form with
      | .block => t.codeChildren.any halts
      | .branch => (t.child? "consequence").any halts && t.alternative?.any halts
      | .leave | .fail => true
      | _ => false := by
  rw [halts]
  simp only [List.any_subtype, List.unattach_attach, Option.any_attach]

/-- The reached statements in a statement are itself and those in its parts. -/
lemma walked_eq (t : Tree) : t.walked = t :: t.parts.flatMap walked := by
  rw [walked]
  simp only [List.flatMap_subtype, List.unattach_attach]

end Tree

/-! ## Dead code -/

namespace Stmt

variable (d : Dialect)

open Flowchart.Tree

/-- Nothing is drawn where control does not get to. -/
lemma drawAll_nil_entries (body : List Stmt) (size : ℕ) :
    drawAll body size [] = ⟨[], [], [], []⟩ := by
  cases body <;> rfl

/-- Control goes on nowhere behind statements if it does not behind one of them. -/
lemma continues_drawAll {body : List Stmt} {s : Stmt} (hs : s ∈ body)
    (h : ∀ size entries, (s.draw size entries).continues = []) (size : ℕ) (entries : List Entry) :
    (drawAll body size entries).continues = [] := by
  induction body generalizing size entries with
  | nil => cases hs
  | cons s' rest ih =>
    cases entries with
    | nil => rfl
    | cons e entries =>
      rcases List.mem_cons.mp hs with rfl | hs
      · have hcontinues := h size (e :: entries)
        simp [drawAll, Drawing.whenLive, Drawing.andThen, hcontinues, drawAll_nil_entries]
      · exact ih hs _ _

/-- **Control goes on nowhere behind a statement that halts.** -/
lemma continues_of_halts {t : Tree} (h : t.halts = true) (size : ℕ) (entries : List Entry) :
    ((ofTree d t).draw size entries).continues = [] := by
  rw [halts_eq] at h
  rw [ofTree_eq]
  cases hform : t.form with
  | block =>
    rw [hform] at h
    obtain ⟨c, hc, hhalts⟩ := List.any_eq_true.mp h
    exact continues_drawAll (List.mem_map_of_mem hc) (continues_of_halts hhalts) size entries
  | branch =>
    rw [hform] at h
    obtain ⟨htrue, hfalse⟩ := Bool.and_eq_true_iff.mp h
    obtain ⟨c, hc, hhalts⟩ := (Option.any_eq_true _ _).mp htrue
    obtain ⟨c', hc', hhalts'⟩ := (Option.any_eq_true _ _).mp hfalse
    simp only [hc, hc', Option.elim_some, draw, Drawing.branch, continues_of_halts hhalts,
      continues_of_halts hhalts', List.append_nil]
  | leave => rfl
  | fail => rfl
  | _ =>
    rw [hform] at h
    cases h
termination_by sizeOf t
decreasing_by
  · exact sizeOf_lt_of_mem_codeChildren hc
  · exact sizeOf_lt_of_mem_child? hc
  · exact sizeOf_lt_of_mem_alternative? hc'

/-- **Nothing is drawn for dead code.** -/
lemma drawAll_reached (cs : List Tree) :
    drawAll (cs.map (ofTree d)) = drawAll ((reached cs).map (ofTree d)) := by
  induction cs with
  | nil => rfl
  | cons c cs ih =>
    rw [reached]
    split_ifs with hc
    · funext size entries
      have hcontinues := continues_of_halts d hc size entries
      simp only [List.map_cons, List.map_nil, drawAll, Drawing.whenLive, Drawing.andThen,
        hcontinues, drawAll_nil_entries]
      rfl
    · simp only [List.map_cons, drawAll, ih]

end Stmt

/-! ## Outlines -/

namespace Tree

@[simp] lemma form_outline (t : Tree) : t.outline.form = t.form := by
  rw [form, kind_outline, form]

@[simp] lemma alternative?_outline (t : Tree) :
    t.outline.alternative? = t.alternative?.map outline := by
  rw [alternative?, alternative?, child?_outline, Option.bind_map, Option.map_bind]
  congr 1
  funext a
  by_cases ha : a.kind = "else_clause" <;> simp [ha]

/-- A statement halts if its outline does. -/
@[simp] lemma halts_outline (t : Tree) : t.outline.halts = t.halts := by
  have hblock : (t.codeChildren.map outline).any halts = t.codeChildren.any halts := by
    rw [List.any_map, Bool.eq_iff_iff, List.any_eq_true, List.any_eq_true]
    exact exists_congr fun c => and_congr_right fun hc => by
      rw [Function.comp_apply, halts_outline c]
  have hside : ∀ side : Option Tree, (∀ c ∈ side, c.outline.halts = c.halts) →
      (side.map outline).any halts = side.any halts := fun side h => by
    cases side with
    | none => rfl
    | some c => exact h c rfl
  have hconsequence := hside (t.child? "consequence") fun c hc => halts_outline c
  have halternative := hside t.alternative? fun c hc => halts_outline c
  rw [halts_eq, halts_eq t, form_outline, codeChildren_outline, child?_outline,
    alternative?_outline, hblock, hconsequence, halternative]
termination_by sizeOf t
decreasing_by
  · exact sizeOf_lt_of_mem_codeChildren hc
  · exact sizeOf_lt_of_mem_child? hc
  · exact sizeOf_lt_of_mem_alternative? hc

lemma reached_map_outline (cs : List Tree) :
    reached (cs.map outline) = (reached cs).map outline := by
  induction cs with
  | nil => rfl
  | cons c cs ih =>
    rw [List.map_cons, reached, reached, halts_outline, ih]
    split_ifs <;> rfl

@[simp] lemma parts_outline (t : Tree) : t.outline.parts = t.parts.map outline := by
  unfold parts
  rw [form_outline]
  cases t.form with
  | block => rw [codeChildren_outline, reached_map_outline]
  | branch => simp [Option.toList_map]
  | loop form => simp [Option.toList_map]
  | _ => rfl

/-- **The reached statements** in a statement are found in its outline. -/
lemma walked_outline (t : Tree) : t.outline.walked = t.walked.map outline := by
  have hparts := flatMap_map_outline fun c (hc : c ∈ t.parts) => walked_outline c
  rw [walked_eq, walked_eq t, parts_outline, hparts, List.map_cons]
termination_by sizeOf t
decreasing_by
  exact sizeOf_lt_of_mem_parts hc

end Tree

end Flowchart
