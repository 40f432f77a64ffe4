import Flowchart.Proofs.Flow.Construction
import Flowchart.Proofs.Flow.Correspondence

set_option relaxedAutoImplicit false
set_option autoImplicit false

/-!
# Spellings

Statements can be spelt in many ways. Braces around statements, empty statements, comments, empty
alternatives and dead code can be put in and taken out anywhere, and the chart stays as it is: the
same nodes and edges are drawn in the same order, and the same ends are left open.

## Main definitions

* `Flowchart.Setting.drawing`: the drawing of statements in a row.
* `Flowchart.Setting.Respelled`: statements in a row that are spelt in another way.

## Main results

* `Flowchart.Setting.Respelled.drawing_eq`: other spellings are drawn alike.
* `Flowchart.Setting.draw_respelled`: other spellings give the same draft and leave the same ends,
  and rows of statements are drawn one behind the other.
-/

namespace Flowchart

/-! ## Drawings of rows -/

namespace Stmt

/-- Two rows of statements are drawn one behind the other. -/
lemma drawAll_append (body rest : List Stmt) :
    drawAll (body ++ rest) = (drawAll body).andThen (drawAll rest) := by
  induction body with
  | nil => exact (Drawing.skip_andThen _).symm
  | cons s body ih =>
    funext size entries
    cases entries with
    | nil => simp [drawAll_nil_entries, Drawing.andThen]
    | cons e entries =>
      have hassoc := congrFun (congrFun (Drawing.andThen_assoc s.draw (drawAll body)
        (drawAll rest)) size) (e :: entries)
      simpa [drawAll, Drawing.whenLive, ih, Drawing.andThen] using hassoc.symm

/-- Where control gets to it, a statement by itself is drawn as a row. -/
lemma drawAll_singleton (s : Stmt) (size : ℕ) {entries : List Entry} (hentries : entries ≠ []) :
    drawAll [s] size entries = s.draw size entries := by
  have hempty : entries.isEmpty = false := by simpa using hentries
  simp [drawAll, Drawing.whenLive, hempty, Drawing.andThen, Drawing.skip]

end Stmt

namespace Setting

variable {s : Setting} {xs ys : List Tree}

/-- The drawing of statements in a row. -/
def drawing (s : Setting) (ts : List Tree) : Drawing :=
  Stmt.drawAll (ts.map (Stmt.ofTree s.dialect))

/-- Two rows of statements are drawn one behind the other. -/
lemma drawing_append (xs ys : List Tree) :
    s.drawing (xs ++ ys) = (s.drawing xs).andThen (s.drawing ys) := by
  rw [drawing, List.map_append, Stmt.drawAll_append]
  rfl

/-- Where control gets to it, a statement by itself is drawn as a row. -/
lemma drawing_singleton (t : Tree) (size : ℕ) {entries : List Entry} (hentries : entries ≠ []) :
    s.drawing [t] size entries = (Stmt.ofTree s.dialect t).draw size entries :=
  Stmt.drawAll_singleton _ size hentries

/-- Where control gets to it, a part that may be missing is drawn as a row. -/
lemma draw_part (part : Option Tree) (size : ℕ) (e : Entry) :
    (part.elim Stmt.skip (Stmt.ofTree s.dialect)).draw size [e] =
      s.drawing part.toList size [e] := by
  cases part with
  | none => rfl
  | some c => exact (drawing_singleton c size (List.cons_ne_nil e [])).symm

/-- Two rows are drawn alike if they are where control gets to them: elsewhere nothing is drawn. -/
lemma drawing_ext (h : ∀ size entries, entries ≠ [] →
    s.drawing xs size entries = s.drawing ys size entries) : s.drawing xs = s.drawing ys := by
  funext size entries
  by_cases hentries : entries = []
  · rw [hentries, drawing, drawing, Stmt.drawAll_nil_entries, Stmt.drawAll_nil_entries]
  · exact h size entries hentries

/-- A statement is read by its kind, its text and what stands in it, wherever it stands itself. -/
lemma ofTree_node_congr {h h' : Tree.Head} (cs : List Tree) (hkind : h.kind = h'.kind)
    (htext : h.text = h'.text) :
    Stmt.ofTree s.dialect (.node h cs) = Stmt.ofTree s.dialect (.node h' cs) := by
  cases h
  cases h'
  subst hkind htext
  rw [Stmt.ofTree_eq, Stmt.ofTree_eq]
  cases s <;> rfl

/-! ## Spellings of rows -/

/-- The second row of statements is the first one, spelt in another way. -/
inductive Respelled (s : Setting) : List Tree → List Tree → Prop where
  | refl (xs : List Tree) : Respelled s xs xs
  | symm {xs ys : List Tree} : Respelled s xs ys → Respelled s ys xs
  | trans {xs ys zs : List Tree} : Respelled s xs ys → Respelled s ys zs → Respelled s xs zs
  /-- The parts of a row are spelt in other ways. -/
  | append {xs xs' ys ys' : List Tree} :
      Respelled s xs xs' → Respelled s ys ys' → Respelled s (xs ++ ys) (xs' ++ ys')
  /-- The braces around statements are left out. -/
  | block {t : Tree} : t.kind = "statement_block" → Respelled s [t] t.codeChildren
  /-- An empty statement or a comment is left out. -/
  | blank {t : Tree} : t.kind ∈ Tree.blankKinds → Respelled s [t] []
  /-- The statements behind one that control never gets behind are left out. -/
  | dead {t : Tree} (ts : List Tree) : t.halts = true → Respelled s (t :: ts) [t]
  /-- The sides of a choice are spelt in other ways; one that is missing is an empty row. -/
  | branch {t t' : Tree} : t.kind = "if_statement" → t'.kind = "if_statement" →
      t.branchLabel = t'.branchLabel →
      Respelled s (t.child? "consequence").toList (t'.child? "consequence").toList →
      Respelled s t.alternative?.toList t'.alternative?.toList → Respelled s [t] [t']
  /-- The body of a loop is spelt in another way. -/
  | loop {t t' : Tree} (form : LoopForm) : t.form = .loop form → t'.form = .loop form →
      t.loopLabel form = t'.loopLabel form →
      Respelled s (t.child? "body").toList (t'.child? "body").toList → Respelled s [t] [t']
  /-- A statement is put into another part of the statement around it, or on another line. -/
  | place {h h' : Tree.Head} (cs : List Tree) : h.kind = h'.kind → h.text = h'.text →
      Respelled s [.node h cs] [.node h' cs]
  /-- Comments and line breaks in a statement are put elsewhere. -/
  | layout {t t' : Tree} : t.outline = t'.outline → s.captions t = s.captions t' →
      Respelled s [t] [t']

namespace Respelled

/-- A part that holds nothing is left out: an empty statement or empty braces. -/
lemma omit_part {part : Option Tree} (h : ∀ c ∈ part,
    c.kind ∈ Tree.blankKinds ∨ c.kind = "statement_block" ∧ c.codeChildren = []) :
    s.Respelled part.toList [] := by
  cases part with
  | none => exact refl []
  | some c =>
    rcases h c rfl with hblank | ⟨hblock, hnil⟩
    · exact blank hblank
    · exact hnil ▸ block hblock

/-! ## Drawings of spellings -/

/-- **Other spellings are drawn alike.**

**Proof sketch.** By induction on the spelling. Rows are drawn one behind the other, so each way to
spell is a fact about one statement: nothing is drawn for braces and for blank statements, nothing
is left to draw dead code from, and the parts of a statement are entered by one open end each. -/
lemma drawing_eq (h : s.Respelled xs ys) : s.drawing xs = s.drawing ys := by
  induction h with
  | refl xs => rfl
  | symm _ ih => exact ih.symm
  | trans _ _ ih ih' => exact ih.trans ih'
  | append _ _ ih ih' => rw [drawing_append, drawing_append, ih, ih']
  | @block t hkind =>
    have hform : t.form = .block := (Tree.form_eq_iff .block).mpr hkind
    refine drawing_ext fun size entries hentries => ?_
    rw [drawing_singleton t size hentries, Stmt.ofTree_eq, hform]
    rfl
  | @blank t hkind =>
    have hform : t.form = .blank := (Tree.form_eq_iff .blank).mpr hkind
    refine drawing_ext fun size entries hentries => ?_
    rw [drawing_singleton t size hentries, Stmt.ofTree_eq, hform]
    rfl
  | @dead t ts hhalts =>
    rw [drawing, Stmt.drawAll_reached, Tree.reached, if_pos hhalts, drawing]
  | @branch t t' hkind hkind' hlabel _ _ ih ih' =>
    have hform : t.form = .branch := (Tree.form_eq_iff .branch).mpr hkind
    have hform' : t'.form = .branch := (Tree.form_eq_iff .branch).mpr hkind'
    refine drawing_ext fun size entries hentries => ?_
    rw [drawing_singleton t size hentries, drawing_singleton t' size hentries, Stmt.ofTree_eq,
      Stmt.ofTree_eq, hform, hform']
    simp only [Stmt.draw, Drawing.branch, draw_part, hlabel, ih, ih']
  | @loop t t' form hform hform' hlabel _ ih =>
    refine drawing_ext fun size entries hentries => ?_
    rw [drawing_singleton t size hentries, drawing_singleton t' size hentries, Stmt.ofTree_eq,
      Stmt.ofTree_eq, hform, hform']
    simp only [Stmt.draw, Drawing.loop, draw_part, hlabel, ih]
  | @place h h' cs hkind htext =>
    refine drawing_ext fun size entries hentries => ?_
    rw [drawing_singleton _ size hentries, drawing_singleton _ size hentries,
      ofTree_node_congr cs hkind htext]
  | @layout t t' houtline hcaptions =>
    have hlike : s.Like s := by
      cases s
      · exact .contract
      · exact .scenario _ _
    refine drawing_ext fun size entries hentries => ?_
    rw [drawing_singleton t size hentries, drawing_singleton t' size hentries,
      hlike.draw_congr houtline hcaptions fun _ _ _ _ => rfl]

end Respelled

/-- **Spellings make no difference.** Behind every draft and from all open ends, statements that are
spelt in another way give the same nodes and edges in the same order and leave the same ends. In
particular, two rows of statements in one are drawn one behind the other, and the ends that return
are those of both. -/
theorem draw_respelled (s : Setting) (d : Draft) (entries : List Entry) :
    (∀ xs ys, s.Respelled xs ys → d.draw (s.drawing xs) entries = d.draw (s.drawing ys) entries) ∧
      ∀ xs ys,
        let first := d.draw (s.drawing xs) entries
        let second := first.1.draw (s.drawing ys) first.2.continues
        d.draw (s.drawing (xs ++ ys)) entries =
          (second.1, ⟨first.2.marks ++ second.2.marks, first.2.edges ++ second.2.edges,
            second.2.continues, first.2.returns ++ second.2.returns⟩) := by
  refine ⟨fun xs ys h => by rw [h.drawing_eq], fun xs ys => ?_⟩
  simp only [drawing_append, Draft.draw, Drawing.andThen, Draft.extend, Draft.size,
    List.length_append, List.append_assoc]

/-! ## An example -/

/-- The statement `return;` in a field of a statement around it. -/
def bareReturn (field : Option String) : Tree :=
  .node ⟨3, "return_statement", true, field, 1, "return;"⟩ []

/-- The empty statement. -/
def semicolon : Tree :=
  .node ⟨4, "empty_statement", true, none, 1, ";"⟩ []

/-- The same statement in braces, with dead code behind it. -/
def bracedReturn : Tree :=
  .node ⟨2, "statement_block", true, some "consequence", 1, "\x7b return; ; \x7d"⟩
    [bareReturn none, semicolon]

/-- A choice with the condition `(busy)`. -/
def busyChoice (text : String) (sides : List Tree) : Tree :=
  .node ⟨0, "if_statement", true, none, 1, text⟩
    (.node ⟨1, "parenthesized_expression", true, some "condition", 1, "(busy)"⟩ [
      .node ⟨2, "identifier", true, none, 1, "busy"⟩ []] :: sides)

/-- The choice `if (busy) return;`. -/
def shortChoice : Tree :=
  busyChoice "if (busy) return;" [bareReturn (some "consequence")]

/-- The same choice with braces, dead code and an alternative that holds nothing. -/
def longChoice : Tree :=
  busyChoice "if (busy) \x7b return; ; \x7d else ;" [bracedReturn,
    .node ⟨5, "else_clause", true, some "alternative", 1, "else ;"⟩ [semicolon]]

/-- **Braces, dead code and an empty alternative** make no difference behind a start. -/
theorem draw_choice_respelled :
    contract.Respelled [shortChoice] [longChoice] ∧
      (Draft.empty.add ⟨.start, "start"⟩).draw (contract.drawing [shortChoice]) [⟨"n1", none⟩] =
        (Draft.empty.add ⟨.start, "start"⟩).draw (contract.drawing [longChoice])
          [⟨"n1", none⟩] := by
  have hhalts : (bareReturn none).halts = true := by
    rw [Tree.halts_eq]
    rfl
  have hplace : contract.Respelled [bareReturn (some "consequence")] [bareReturn none] :=
    .place [] rfl rfl
  have hdead : contract.Respelled [bareReturn none] bracedReturn.codeChildren :=
    (Respelled.dead [semicolon] hhalts).symm
  have hside : contract.Respelled [bareReturn (some "consequence")] [bracedReturn] :=
    (hplace.trans hdead).trans (Respelled.block rfl).symm
  have hnone : contract.Respelled [] [semicolon] :=
    (Respelled.omit_part (fun c hc => Option.mem_some.mp hc ▸ .inl (by decide))).symm
  have hrespelled : contract.Respelled [shortChoice] [longChoice] :=
    .branch rfl rfl rfl hside hnone
  exact ⟨hrespelled, (draw_respelled _ _ _).1 _ _ hrespelled⟩

end Setting

end Flowchart
