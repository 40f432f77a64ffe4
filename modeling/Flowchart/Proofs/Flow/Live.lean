import Flowchart.Proofs.Flow.Reached
import Mathlib.Data.List.Infix

set_option relaxedAutoImplicit false
set_option autoImplicit false

/-!
# Live statements

Which statements of a body are shown, and by which nodes. A statement stands in rows of statements,
its own and those around it, and it is live if control gets behind all statements before it in these
rows. The nodes that are drawn for a statement are those of the live statements in it, in the order
of the script.

## Main definitions

* `Flowchart.Tree.rows`: the rows of statements in a statement.
* `Flowchart.Tree.occurrences`: the statements in a statement, each with the statements before it.
* `Flowchart.Tree.live`: the live statements in a statement.
* `Flowchart.Setting.marks`: the nodes of a statement by itself.

## Main results

* `Flowchart.Tree.live_eq_walked`: the live statements are those that control can get to.
* `Flowchart.Stmt.continues_eq_nil_iff`: control goes on nowhere behind a statement exactly if the
  statement halts.
* `Flowchart.Setting.marks_draw`, `Flowchart.Setting.marks_body`: the nodes that are drawn for a
  statement and for a block of statements.
-/

namespace Flowchart

namespace Tree

variable {t : Tree}

/-! ## Statements in their places -/

/-- The rows of statements in a statement: that of a block, and a row of its own for each side of a
choice and for the body of a loop. -/
def rows (t : Tree) : List (List Tree) :=
  match t.form with
  | .block => [t.codeChildren]
  | .branch => [(t.child? "consequence").toList, t.alternative?.toList]
  | .loop _ => [(t.child? "body").toList]
  | _ => []

/-- What stands in a row in a statement is smaller than the statement. -/
lemma sizeOf_lt_of_mem_rows {row : List Tree} {c : Tree} (hrow : row ∈ t.rows) (hc : c ∈ row) :
    sizeOf c < sizeOf t := by
  unfold rows at hrow
  split at hrow
  · obtain rfl := List.mem_singleton.mp hrow
    exact sizeOf_lt_of_mem_codeChildren hc
  · rcases List.mem_pair.mp hrow with rfl | rfl
    · exact sizeOf_lt_of_mem_child? (Option.mem_toList.mp hc)
    · exact sizeOf_lt_of_mem_alternative? (Option.mem_toList.mp hc)
  · obtain rfl := List.mem_singleton.mp hrow
    exact sizeOf_lt_of_mem_child? (Option.mem_toList.mp hc)
  · cases hrow

/-- A statement in its place. -/
structure Occurrence where
  statement : Tree
  /-- The statements before it, in its own row and in the rows around it. -/
  before : List Tree

/-- Whether control can get to a statement in its place: it gets behind all that are before it. -/
def Occurrence.isLive (o : Occurrence) : Bool :=
  o.before.all fun s => !s.halts

/-- A statement and the statements in it, in the order of the script, each in its place. -/
def occurrences (before : List Tree) (t : Tree) : List Occurrence :=
  ⟨t, before⟩ :: t.rows.attach.flatMap fun row =>
    (row.1.attach.zip row.1.inits).flatMap fun c => c.1.1.occurrences (before ++ c.2)
termination_by sizeOf t
decreasing_by
  exact sizeOf_lt_of_mem_rows row.2 c.1.2

/-- The live statements in a statement, in the order of the script. -/
def live (t : Tree) : List Tree :=
  ((t.occurrences []).filter Occurrence.isLive).map Occurrence.statement

/-- The statements in a row and in the statements of the row, each in its place. -/
def rowOccurrences (before row : List Tree) : List Occurrence :=
  (row.zip row.inits).flatMap fun c => c.1.occurrences (before ++ c.2)

/-- The statements in a statement are itself and those in its rows. -/
lemma occurrences_eq (before : List Tree) (t : Tree) :
    t.occurrences before = ⟨t, before⟩ :: t.rows.flatMap (rowOccurrences before) := by
  have hrow : ∀ row : List Tree, (row.attach.zip row.inits).flatMap
      (fun c => c.1.1.occurrences (before ++ c.2)) = rowOccurrences before row := fun row => by
    have hzip : row.zip row.inits = (row.attach.zip row.inits).map (Prod.map Subtype.val id) := by
      rw [← List.zip_map_left, List.attach_map_subtype_val]
    rw [rowOccurrences, hzip, List.flatMap_map]
    rfl
  rw [occurrences]
  simp only [hrow, List.flatMap_subtype, List.unattach_attach]

/-- Behind the first statement of a row that statement is before all others. -/
lemma rowOccurrences_cons (before : List Tree) (c : Tree) (cs : List Tree) :
    rowOccurrences before (c :: cs) =
      c.occurrences before ++ rowOccurrences (before ++ [c]) cs := by
  simp [rowOccurrences, List.zip_map_right, List.flatMap_map]

/-- What is before a statement is before all statements in it. -/
lemma prefix_of_mem_occurrences {before : List Tree} {t : Tree} {o : Occurrence}
    (h : o ∈ t.occurrences before) : before <+: o.before := by
  rw [occurrences_eq] at h
  rcases List.mem_cons.mp h with rfl | h
  · exact List.prefix_rfl
  · obtain ⟨row, hrow, ho⟩ := List.mem_flatMap.mp h
    obtain ⟨⟨c, cs⟩, hc, ho⟩ := List.mem_flatMap.mp ho
    have := sizeOf_lt_of_mem_rows hrow (List.of_mem_zip hc).1
    exact (List.prefix_append before cs).trans (prefix_of_mem_occurrences ho)
termination_by sizeOf t

/-- What is before a row is before all statements in it. -/
lemma prefix_of_mem_rowOccurrences {before row : List Tree} {o : Occurrence}
    (h : o ∈ rowOccurrences before row) : before <+: o.before := by
  obtain ⟨⟨c, cs⟩, -, ho⟩ := List.mem_flatMap.mp h
  exact (List.prefix_append before cs).trans (prefix_of_mem_occurrences ho)

/-- **Dead code.** Behind a statement that halts no statement of a row is live. -/
lemma filter_rowOccurrences_eq_nil {before row : List Tree} (h : before.any halts = true) :
    (rowOccurrences before row).filter Occurrence.isLive = [] := by
  rw [List.filter_eq_nil_iff]
  intro o ho hlive
  obtain ⟨s, hs, hhalts⟩ := List.any_eq_true.mp h
  have hmem := (prefix_of_mem_rowOccurrences ho).subset hs
  have hnot := List.all_eq_true.mp hlive s hmem
  simp [hhalts] at hnot

/-- Alone in a row a statement is reached. -/
lemma reached_toList (part : Option Tree) : reached part.toList = part.toList := by
  cases part with
  | none => rfl
  | some c => simp [reached]

/-- The parts of a statement are what control can get to in its rows. -/
lemma flatMap_reached_rows (t : Tree) : t.rows.flatMap reached = t.parts := by
  unfold rows parts
  cases t.form with
  | branch => simp [reached_toList]
  | loop form => simp [reached_toList]
  | _ => simp

/-- The live statements in a row are those that control can get to, if this is so for each statement
of the row. -/
lemma live_row {before row : List Tree} (hbefore : before.any halts = false)
    (h : ∀ c ∈ row, ∀ before : List Tree, before.any halts = false →
      ((c.occurrences before).filter Occurrence.isLive).map Occurrence.statement = c.walked) :
    ((rowOccurrences before row).filter Occurrence.isLive).map Occurrence.statement =
      (reached row).flatMap walked := by
  induction row generalizing before with
  | nil => rfl
  | cons c cs ih =>
    obtain ⟨hc, hcs⟩ := List.forall_mem_cons.mp h
    rw [rowOccurrences_cons, List.filter_append, List.map_append, hc before hbefore, reached,
      List.flatMap_cons]
    congr 1
    split_ifs with hhalts
    · rw [filter_rowOccurrences_eq_nil (by simp [hhalts])]
      rfl
    · exact ih (by simp [hbefore, hhalts]) hcs

/-- In a place that control gets to, the live statements in a statement are those that control can
get to.

**Proof sketch.** By induction on the size of the statement. Whatever stands in a row behind a
statement that halts is dead, and so is all that is in it. -/
lemma live_occurrences (t : Tree) {before : List Tree} (hbefore : before.any halts = false) :
    ((t.occurrences before).filter Occurrence.isLive).map Occurrence.statement = t.walked := by
  have hself : (⟨t, before⟩ : Occurrence).isLive = true := by
    simpa [Occurrence.isLive] using hbefore
  have hrow : ∀ row ∈ t.rows,
      ((rowOccurrences before row).filter Occurrence.isLive).map Occurrence.statement =
        (reached row).flatMap walked := fun row hrow =>
    live_row hbefore fun c hc before' hbefore' =>
      have := sizeOf_lt_of_mem_rows hrow hc
      live_occurrences c hbefore'
  rw [occurrences_eq, List.filter_cons, if_pos hself, List.map_cons, List.filter_flatMap,
    List.map_flatMap, List.flatMap_congr hrow, ← List.flatMap_assoc, flatMap_reached_rows,
    ← walked_eq]
termination_by sizeOf t

/-- **The live statements** in a statement are those that control can get to. -/
theorem live_eq_walked (t : Tree) : t.live = t.walked :=
  t.live_occurrences rfl

end Tree

/-! ## Statements that control gets behind -/

namespace Stmt

variable (d : Dialect)

open Flowchart.Tree

/-- Control goes on behind statements if it does so behind each of them. -/
lemma continues_drawAll_ne_nil {body : List Stmt}
    (h : ∀ s ∈ body, ∀ size entries, entries ≠ [] → (s.draw size entries).continues ≠ [])
    (size : ℕ) {entries : List Entry} (hentries : entries ≠ []) :
    (drawAll body size entries).continues ≠ [] := by
  induction body generalizing size entries with
  | nil => exact hentries
  | cons s rest ih =>
    obtain ⟨hs, hrest⟩ := List.forall_mem_cons.mp h
    have hempty : entries.isEmpty = false := by simpa using hentries
    simpa [drawAll, Drawing.whenLive, hempty, Drawing.andThen] using
      ih hrest _ (hs size entries hentries)

/-- **Control goes on behind a statement that does not halt.** -/
lemma continues_ne_nil_of_not_halts {t : Tree} (h : t.halts = false) (size : ℕ)
    {entries : List Entry} (hentries : entries ≠ []) :
    ((ofTree d t).draw size entries).continues ≠ [] := by
  -- a side of a choice goes on if there is none or if it does not halt
  have hside : ∀ side : Option Tree, side.any halts = false → (∀ c ∈ side, sizeOf c < sizeOf t) →
      ∀ (size : ℕ) (e : Entry), ((side.elim skip (ofTree d)).draw size [e]).continues ≠ [] := by
    intro side hany hsize size e
    cases side with
    | none => exact List.cons_ne_nil _ _
    | some c =>
      have := hsize c rfl
      exact continues_ne_nil_of_not_halts hany size (List.cons_ne_nil _ _)
  rw [halts_eq] at h
  rw [ofTree_eq]
  cases hform : t.form with
  | block =>
    rw [hform] at h
    refine continues_drawAll_ne_nil (fun s hs size entries hne => ?_) size hentries
    obtain ⟨c, hc, rfl⟩ := List.mem_map.mp hs
    have := sizeOf_lt_of_mem_codeChildren hc
    have hc' : c.halts = false := by simpa using List.any_eq_false.mp h c hc
    exact continues_ne_nil_of_not_halts hc' size hne
  | branch =>
    rw [hform] at h
    simp only [draw, Drawing.branch]
    rcases Bool.and_eq_false_iff.mp h with htrue | hfalse
    · exact List.append_ne_nil_of_left_ne_nil
        (hside _ htrue (fun _ => sizeOf_lt_of_mem_child?) _ _) _
    · exact List.append_ne_nil_of_right_ne_nil _
        (hside _ hfalse (fun _ => sizeOf_lt_of_mem_alternative?) _ _)
  | loop form => exact List.cons_ne_nil _ _
  | leave =>
    rw [hform] at h
    cases h
  | fail =>
    rw [hform] at h
    cases h
  | unsupported => exact Drawing.open_chain _ size entries hentries
  | blank => exact hentries
  | plain => exact Drawing.open_chain _ size entries hentries
termination_by sizeOf t

/-- Where control gets to a statement, it goes on nowhere behind it exactly if the statement halts.
-/
lemma continues_eq_nil_iff (t : Tree) (size : ℕ) {entries : List Entry} (hentries : entries ≠ []) :
    ((ofTree d t).draw size entries).continues = [] ↔ t.halts = true := by
  refine ⟨fun hnil => ?_, fun h => continues_of_halts d h size entries⟩
  by_contra hhalts
  exact continues_ne_nil_of_not_halts d (Bool.eq_false_iff.mpr hhalts) size hentries hnil

end Stmt

/-! ## Nodes of statements -/

namespace Setting

/-- The nodes of a statement by itself, without those of the statements in it. -/
def marks (s : Setting) (t : Tree) : List Mark :=
  match t.form with
  | .block | .blank => []
  | .branch => [⟨.decision, t.branchLabel⟩]
  | .loop form => [⟨.loop, t.loopLabel form⟩]
  | .leave => s.dialect.leaving t
  | .fail => [⟨.error, t.failLabel⟩]
  | .unsupported => [Dialect.unsupported t]
  | .plain => s.plainMarks t

/-- The nodes of a statement and of the statements in it that control can get to. -/
def drawnMarks (s : Setting) (t : Tree) : List Mark :=
  t.walked.flatMap s.marks

/-- The nodes of a statement are its own and those of its parts. -/
lemma drawnMarks_eq (s : Setting) (t : Tree) :
    s.drawnMarks t = s.marks t ++ t.parts.flatMap s.drawnMarks := by
  rw [drawnMarks, Tree.walked_eq, List.flatMap_cons, List.flatMap_assoc]
  rfl

/-- The nodes of statements in a row are those of the statements that control can get to. -/
lemma marks_drawAll {s : Setting} {ts : List Tree}
    (h : ∀ t ∈ ts, ∀ size entries, entries ≠ [] →
      ((Stmt.ofTree s.dialect t).draw size entries).marks = s.drawnMarks t)
    (size : ℕ) {entries : List Entry} (hentries : entries ≠ []) :
    (Stmt.drawAll (ts.map (Stmt.ofTree s.dialect)) size entries).marks =
      (Tree.reached ts).flatMap s.drawnMarks := by
  induction ts generalizing size entries with
  | nil => rfl
  | cons t ts ih =>
    obtain ⟨ht, hts⟩ := List.forall_mem_cons.mp h
    have hempty : entries.isEmpty = false := by simpa using hentries
    rw [Tree.reached, List.flatMap_cons, ← ht size entries hentries]
    simp only [List.map_cons, Stmt.drawAll, Drawing.whenLive, hempty, Drawing.andThen,
      Bool.false_eq_true, if_false]
    congr 1
    have hbehind := Stmt.continues_eq_nil_iff s.dialect t size hentries
    split_ifs with hhalts
    · rw [hbehind.mpr hhalts, Stmt.drawAll_nil_entries]
      rfl
    · exact ih hts _ (mt hbehind.mp hhalts)

/-- **The nodes that are drawn for a statement** are those of the live statements in it, in their
order.

**Proof sketch.** By induction on the size of the statement, by its form. In a row the nodes of a
statement are drawn where control gets behind the statements before it
(`Stmt.continues_eq_nil_iff`). -/
theorem marks_draw (s : Setting) (t : Tree) (size : ℕ) {entries : List Entry}
    (hentries : entries ≠ []) :
    ((Stmt.ofTree s.dialect t).draw size entries).marks = s.drawnMarks t := by
  have hpart : ∀ part : Option Tree, (∀ c ∈ part, sizeOf c < sizeOf t) →
      ∀ (size : ℕ) (e : Entry),
        ((part.elim Stmt.skip (Stmt.ofTree s.dialect)).draw size [e]).marks =
          part.toList.flatMap s.drawnMarks := by
    intro part hsize size e
    cases part with
    | none => rfl
    | some c =>
      have := hsize c rfl
      simpa using s.marks_draw c size (List.cons_ne_nil e [])
  have hfield := fun field => hpart (t.child? field) fun _ => Tree.sizeOf_lt_of_mem_child?
  have halternative := hpart t.alternative? fun _ => Tree.sizeOf_lt_of_mem_alternative?
  rw [Stmt.ofTree_eq, drawnMarks_eq, marks, Tree.parts]
  cases t.form with
  | block =>
    refine marks_drawAll (fun c hc size entries hne => ?_) size hentries
    have := Tree.sizeOf_lt_of_mem_codeChildren hc
    exact s.marks_draw c size hne
  | branch =>
    simp only [Stmt.draw, Drawing.branch, hfield, halternative, List.flatMap_append]
    rfl
  | loop form =>
    simp only [Stmt.draw, Drawing.loop, hfield]
    rfl
  | fail => simp [Stmt.draw, Drawing.stop, Drawing.mark]
  | blank => rfl
  | leave => simp [Stmt.draw, Drawing.leaving, Drawing.marks_chain]
  | _ => simp [Stmt.draw, Drawing.marks_chain, plainMarks]
termination_by sizeOf t

/-- The nodes that are drawn for a block of statements are those of the live statements in it. -/
lemma marks_body (s : Setting) {body : Tree} (h : body.kind = "statement_block") (size : ℕ)
    {entries : List Entry} (hentries : entries ≠ []) :
    (Stmt.drawAll (Stmt.ofForest s.dialect body.children) size entries).marks =
      body.live.flatMap s.marks := by
  have hdraw : Stmt.drawAll (Stmt.ofForest s.dialect body.children) =
      (Stmt.ofTree s.dialect body).draw := by
    rw [Stmt.ofTree_eq, (Tree.form_eq_iff .block).mpr h, Stmt.ofForest_eq]
    rfl
  rw [hdraw, marks_draw s body size hentries, drawnMarks, Tree.live_eq_walked]

end Setting

end Flowchart
