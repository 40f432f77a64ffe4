import Flowchart.Proofs.Flow.Construction
import Flowchart.Proofs.Flow.Reached

set_option relaxedAutoImplicit false
set_option autoImplicit false

/-!
# Correspondence of scripts

What an artifact depends on. Two contracts, or two scenarios, whose trees have the same outline and
quote the same captions have the same artifact, whatever comments and layout they have and whatever
else is in the two scripts.

## Main definitions

* `Flowchart.Setting.shown`, `Flowchart.Owner.shown`: the trees whose captions are labels in the
  chart of a statement and of an owner.
* `Flowchart.Setting.calls`, `Flowchart.Owner.stepVariables`: the calls of `step` that are shown and
  the variables that they name.
* `Flowchart.Owner.Corresponds`: owners that differ in comments, layout and surroundings at most.

## Main results

* `Flowchart.Setting.Like.draw_congr`: statements that correspond are drawn alike.
* `Flowchart.Owner.artifact_congr`: owners that correspond have the same artifact.

## Design

A label is one of three things: a word of the chart, a name, or a caption. Names are kept by the
outline. The captions are compared as a list, in the order in which the chart shows them. Since
trees with the same outline show the same number of captions, the list falls apart into the captions
of single statements.
-/

namespace Flowchart

/-! ## What is shown -/

namespace Tree

/-- The calls of `step` in what a statement returns or evaluates. -/
def statementCalls (t : Tree) : List Tree :=
  if t.kind ∈ ["return_statement", "expression_statement"] then
    t.firstCode?.toList.flatMap stepCalls
  else []

/-- What a call of `step` shows of its first argument: the argument itself, unless this is a
variable. -/
def shownArgument? (call : Tree) : Option Tree :=
  call.arguments.head?.filter fun a => a.identifier?.isNone

/-- The variable that a call of `step` names. -/
def stepVariable? (call : Tree) : Option String :=
  call.arguments.head?.bind identifier?

end Tree

namespace Setting

/-- The calls of `step` that are shown for a statement. -/
def calls : Setting → Tree → List Tree
  | contract, _ => []
  | scenario _, t => t.statementCalls

/-- The trees whose captions are shown for a statement: conditions, traversed values and thrown
operands, in a contract also returned operands and plain statements, and in a scenario the arguments
of steps. -/
def shown (s : Setting) (t : Tree) : List Tree :=
  match t.form with
  | .branch | .loop .testFirst | .loop .testLast => t.condition?.toList
  | .loop .traversing => (t.child? "right").toList
  | .fail => t.firstCode?.toList
  | .leave => match s with
    | contract => t.firstCode?.toList
    | scenario _ => (s.calls t).filterMap Tree.shownArgument?
  | .plain => match s with
    | contract => [t]
    | scenario _ => (s.calls t).filterMap Tree.shownArgument?
  | _ => []

/-- The calls of `step` that are shown for the body of a function: those of its statements, or those
in the array that it is. -/
def bodyCalls (s : Setting) (body : Tree) : List Tree :=
  if body.kind = "statement_block" then body.walked.flatMap s.calls
  else match s with
    | contract => []
    | scenario _ => if body.unwrap.kind = "array" then body.stepCalls else []

/-- The trees whose captions are shown for the body of a function: those of its statements, the
value that it is, or the arguments of the steps in it. -/
def bodyShown (s : Setting) (body : Tree) : List Tree :=
  if body.kind = "statement_block" then body.walked.flatMap s.shown
  else match s with
    | contract => [body]
    | scenario _ => (s.bodyCalls body).filterMap Tree.shownArgument?

/-- The contract that a variable stands for. -/
def contract? : Setting → String → Option String
  | contract, _ => none
  | scenario names, v => names.contract? v

end Setting

namespace Owner

/-- The tree that an owner is read off. -/
def tree : Owner → Tree
  | contract _ object => object
  | scenario _ function => function

/-- Where the statements of an owner run. -/
def setting : Owner → Setting
  | contract _ _ => .contract
  | scenario names _ => .scenario names

/-- The body of the function of an owner. -/
def body? : Owner → Option Tree
  | contract _ object => (object.functionProperty? "transition").bind (Tree.child? · "body")
  | scenario _ function => function.child? "body"

/-- The trees whose captions are labels in the chart of an owner. -/
def shown (o : Owner) : List Tree :=
  o.body?.toList.flatMap o.setting.bodyShown

/-- The variables that the steps of an owner name. -/
def stepVariables (o : Owner) : List String :=
  (o.body?.toList.flatMap o.setting.bodyCalls).filterMap Tree.stepVariable?

/-- The variables that the preconditions of an owner are. -/
def guardVariables : Owner → List String
  | contract _ object =>
    (Tree.elements (object.arrayProperty? "pre")).filterMap Tree.identifier?
  | scenario _ _ => []

/-- The initializer of a variable in the script of an owner. -/
def initializer? : Owner → String → Option Tree
  | contract root _, v => root.initializer? v
  | scenario _ _, _ => none

/-- **Owners that correspond.** They differ in comments, in layout and in what is around them, and
in nothing that is shown: they have the same outline and quote the same captions. The variables that
are preconditions have initializers with the same outline, or none in both scripts, and the
variables that are named by steps stand for the same contracts. -/
structure Corresponds (o o' : Owner) : Prop where
  kind_eq : o.kind = o'.kind
  outline_eq : o.tree.outline = o'.tree.outline
  captions_eq : o.shown.map Tree.caption = o'.shown.map Tree.caption
  initializers_eq : ∀ v ∈ o.guardVariables,
    (o.initializer? v).map Tree.outline = (o'.initializer? v).map Tree.outline
  contracts_eq : ∀ v ∈ o.stepVariables, o.setting.contract? v = o'.setting.contract? v

end Owner

/-! ## Rows of trees with the same outlines -/

namespace Tree

/-- **Rows fall apart.** What is listed for two rows of trees with the same outlines is the same for
each two trees in the rows, if it has the same length for trees with the same outline. -/
lemma map_congr_of_flatMap {α β : Type} {f f' : Tree → List α} {k k' : Tree → β}
    {xs ys : List Tree} (h : xs.map outline = ys.map outline)
    (hlength : ∀ x y : Tree, x.outline = y.outline → (f x).length = (f' y).length)
    (hf : xs.flatMap f = ys.flatMap f')
    (hk : ∀ x ∈ xs, ∀ y, x.outline = y.outline → f x = f' y → k x = k' y) :
    xs.map k = ys.map k' := by
  induction xs generalizing ys with
  | nil =>
    cases ys with
    | nil => rfl
    | cons y ys => cases h
  | cons x xs ih =>
    cases ys with
    | nil => cases h
    | cons y ys =>
      obtain ⟨hxy, hrest⟩ := List.cons.inj h
      obtain ⟨hfx, hfxs⟩ := List.append_inj hf (hlength x y hxy)
      rw [List.map_cons, List.map_cons, hk x List.mem_cons_self y hxy hfx,
        ih hrest hfxs fun z hz => hk z (List.mem_cons_of_mem x hz)]

/-! ## Outlines of what is shown -/

@[simp] lemma condition?_outline (t : Tree) : t.outline.condition? = t.condition?.map outline := by
  simp [condition?, Function.comp_def, stripParens, peel_outline]

@[simp] lemma traversal_outline (t : Tree) : t.outline.traversal = t.traversal := by
  unfold traversal
  rw [child?_outline, children_outline, find?_outlines]
  · cases t.child? "operator" with
    | some operator => simp
    | none =>
      cases t.children.find? fun c => !c.named && c.kind ∈ ["in", "of"] <;> simp
  · intro c hc
    simp [IsStray.kind_eq hc]
  · simp

@[simp] lemma statementCalls_outline (t : Tree) :
    t.outline.statementCalls = t.statementCalls.map outline := by
  unfold statementCalls
  rw [kind_outline, firstCode?_outline]
  split_ifs
  · cases t.firstCode? <;> simp [stepCalls_outline]
  · rfl

@[simp] lemma shownArgument?_outline (call : Tree) :
    call.outline.shownArgument? = call.shownArgument?.map outline := by
  simp [shownArgument?, List.head?_map, Option.filter_map, Function.comp_def]

@[simp] lemma stepVariable?_outline (call : Tree) :
    call.outline.stepVariable? = call.stepVariable? := by
  simp [stepVariable?, List.head?_map, Option.bind_map]

end Tree

namespace Setting

@[simp] lemma calls_outline (s : Setting) (t : Tree) :
    s.calls t.outline = (s.calls t).map Tree.outline := by
  cases s <;> simp [calls]

/-- What is shown for a statement is found in its outline. -/
lemma shown_outline (s : Setting) (t : Tree) :
    s.shown t.outline = (s.shown t).map Tree.outline := by
  have harguments : ((s.calls t).map Tree.outline).filterMap Tree.shownArgument? =
      ((s.calls t).filterMap Tree.shownArgument?).map Tree.outline := by
    simp [List.filterMap_map, List.map_filterMap]
  unfold shown
  rw [Tree.form_outline, calls_outline, harguments]
  cases t.form with
  | loop form => cases form <;> simp [Option.toList_map]
  | leave => cases s <;> simp [Option.toList_map]
  | plain => cases s <;> simp
  | _ => simp [Option.toList_map]

/-- The captions that are shown for a statement and all statements in it. -/
def captions (s : Setting) (t : Tree) : List String :=
  (t.walked.flatMap s.shown).map Tree.caption

/-- The captions of a statement are its own ones and those of its parts. -/
lemma captions_eq (s : Setting) (t : Tree) :
    s.captions t = (s.shown t).map Tree.caption ++ t.parts.flatMap s.captions := by
  rw [captions, Tree.walked_eq, List.flatMap_cons, List.map_append, List.flatMap_assoc,
    List.map_flatMap]
  rfl

/-- Settings of one kind, which may look up variables in different scripts. -/
inductive Like : Setting → Setting → Prop where
  | contract : Like contract contract
  | scenario (names names' : Names) : Like (scenario names) (scenario names')

variable {s s' : Setting} {t t' : Tree}

/-- Which trees are shown does not depend on what variables stand for. -/
lemma Like.shown_eq (h : s.Like s') : s.shown = s'.shown := by
  cases h <;> rfl

/-- Trees with the same outline show the same number of captions of their own. -/
lemma Like.length_shown (h : s.Like s') (ht : t.outline = t'.outline) :
    (s.shown t).length = (s'.shown t').length := by
  rw [h.shown_eq]
  refine Tree.congr_of_outline (f := fun t => (s'.shown t).length) (fun t => ?_) ht
  rw [shown_outline, List.length_map]

/-- Trees with the same outline show the same number of captions. -/
lemma Like.length_captions (h : s.Like s') (ht : t.outline = t'.outline) :
    (s.captions t).length = (s'.captions t').length := by
  rw [captions, captions, h.shown_eq, List.length_map, List.length_map]
  refine Tree.congr_of_outline (f := fun t => (t.walked.flatMap s'.shown).length) (fun t => ?_) ht
  rw [Tree.walked_outline, Tree.flatMap_map_outline fun u _ => shown_outline s' u, List.length_map]

/-- **The captions of a statement** fall apart: if they are those of another one with the same
outline, then so are its own ones, and so are those of its parts. -/
lemma Like.captions_inj (h : s.Like s') (ht : t.outline = t'.outline)
    (hcaptions : s.captions t = s'.captions t') :
    (s.shown t).map Tree.caption = (s'.shown t').map Tree.caption ∧
      t.parts.flatMap s.captions = t'.parts.flatMap s'.captions := by
  rw [captions_eq, captions_eq] at hcaptions
  exact List.append_inj hcaptions (by rw [List.length_map, List.length_map, h.length_shown ht])

end Setting

/-! ## Labels of steps -/

namespace Tree

/-- The label of a call of `step`, by the variable or the argument that it shows. -/
lemma stepLabel_eq (names : Names) (call : Tree) :
    call.stepLabel names = match call.stepVariable? with
      | some v => "step " ++ (names.contract? v).getD v
      | none => (call.shownArgument?.map caption).elim "step <unknown>" ("step " ++ ·) := by
  unfold stepLabel stepVariable? shownArgument?
  cases call.arguments.head? with
  | none => rfl
  | some a => cases h : a.identifier? <;> simp [h, Option.filter]

/-- **The labels of steps** are the same for calls with the same outlines that show the same
captions, if the variables that they name stand for the same contracts. -/
lemma map_stepLabel_congr {names names' : Names} {calls calls' : List Tree}
    (h : calls.map outline = calls'.map outline)
    (hcaptions : (calls.filterMap shownArgument?).map caption =
      (calls'.filterMap shownArgument?).map caption)
    (hnames : ∀ v ∈ calls.filterMap stepVariable?, names.contract? v = names'.contract? v) :
    calls.map (stepLabel names) = calls'.map (stepLabel names') := by
  have hlist : ∀ calls : List Tree, (calls.filterMap shownArgument?).map caption =
      calls.flatMap fun call => (call.shownArgument?.map caption).toList := fun calls => by
    rw [List.map_filterMap, List.filterMap_eq_flatMap_toList]
  rw [hlist, hlist] at hcaptions
  refine map_congr_of_flatMap h (fun x y hxy => ?_) hcaptions fun x hx y hxy heq => ?_
  · refine congr_of_outline (f := fun call => (call.shownArgument?.map caption).toList.length)
      (fun call => ?_) hxy
    cases hcall : call.shownArgument? <;> simp [hcall]
  · have hvariable : x.stepVariable? = y.stepVariable? := congr_of_outline stepVariable?_outline hxy
    have hcaption : x.shownArgument?.map caption = y.shownArgument?.map caption := by
      simpa using congrArg List.head? heq
    rw [stepLabel_eq, stepLabel_eq, ← hvariable, hcaption]
    cases hv : x.stepVariable? with
    | none => rfl
    | some v =>
      have hmem : v ∈ calls.filterMap stepVariable? := List.mem_filterMap.mpr ⟨x, hx, hv⟩
      simp only [hnames v hmem]

end Tree

/-! ## Drawings of parts -/

namespace Stmt

/-- The drawing of a part that may be missing. -/
lemma draw_elim (d : Dialect) (part : Option Tree) :
    (part.elim skip (ofTree d)).draw =
      (part.toList.map fun c => (ofTree d c).draw).head?.getD .skip := by
  cases part <;> rfl

/-- Statements are drawn one behind the other by what is drawn for each of them. -/
lemma drawAll_congr {body body' : List Stmt} (h : body.map draw = body'.map draw) :
    drawAll body = drawAll body' := by
  induction body generalizing body' with
  | nil =>
    cases body' with
    | nil => rfl
    | cons s' rest' => cases h
  | cons s rest ih =>
    cases body' with
    | nil => cases h
    | cons s' rest' =>
      obtain ⟨hdraw, hrest⟩ := List.cons.inj h
      rw [drawAll, drawAll, hdraw, ih hrest]

end Stmt

/-! ## Statements that correspond -/

namespace Setting

variable {s s' : Setting} {t t' : Tree}

/-- The nodes for the steps of a statement are those for its calls. -/
lemma steps_eq (names : Names) (h : t.kind ∈ ["return_statement", "expression_statement"]) :
    Dialect.steps names t.firstCode? =
      (t.statementCalls.map (Tree.stepLabel names)).map (⟨.action, ·⟩) := by
  rw [Tree.statementCalls, if_pos h]
  cases t.firstCode? with
  | none => rfl
  | some e => simp [Dialect.steps, Tree.stepLabels_eq_map]

/-- The nodes for the steps of statements that correspond are the same. -/
lemma steps_congr {names names' : Names} (h : t.outline = t'.outline)
    (hkind : t.kind ∈ ["return_statement", "expression_statement"])
    (hcaptions : (t.statementCalls.filterMap Tree.shownArgument?).map Tree.caption =
      (t'.statementCalls.filterMap Tree.shownArgument?).map Tree.caption)
    (hnames : ∀ v ∈ t.statementCalls.filterMap Tree.stepVariable?,
      names.contract? v = names'.contract? v) :
    Dialect.steps names t.firstCode? = Dialect.steps names' t'.firstCode? := by
  have hkinds : t.kind = t'.kind := Tree.congr_of_outline Tree.kind_outline h
  have hcalls : t.statementCalls.map Tree.outline = t'.statementCalls.map Tree.outline := by
    rw [← Tree.statementCalls_outline, h, Tree.statementCalls_outline]
  rw [steps_eq names hkind, steps_eq names' (hkinds ▸ hkind),
    Tree.map_stepLabel_congr hcalls hcaptions hnames]

/-- Captions behind a word are the same for trees with the same captions. -/
lemma captioned_congr {o o' : Option Tree} (word : String)
    (h : o.toList.map Tree.caption = o'.toList.map Tree.caption) :
    Tree.captioned word o = Tree.captioned word o' := by
  cases o <;> cases o' <;> simp_all [Tree.captioned]

/-- **The nodes for a statement that returns** are the same for statements that correspond. -/
lemma Like.leaving_congr (hlike : s.Like s') (h : t.outline = t'.outline) (hform : t.form = .leave)
    (hcaptions : (s.shown t).map Tree.caption = (s'.shown t').map Tree.caption)
    (hnames : ∀ v ∈ (s.calls t).filterMap Tree.stepVariable?, s.contract? v = s'.contract? v) :
    s.dialect.leaving t = s'.dialect.leaving t' := by
  have hform' : t'.form = .leave := Tree.congr_of_outline Tree.form_outline h ▸ hform
  simp only [shown, hform, hform'] at hcaptions
  cases hlike with
  | contract =>
    have hlabel := captioned_congr "return" hcaptions
    simp only [dialect, Dialect.contract, hlabel]
  | scenario names names' =>
    have hkind : t.kind = "return_statement" := (Tree.form_eq_iff .leave).mp hform
    exact steps_congr h (by simp [hkind]) hcaptions hnames

/-- **The nodes for a plain statement** are the same for statements that correspond. -/
lemma Like.plainMarks_congr (hlike : s.Like s') (h : t.outline = t'.outline)
    (hform : t.form = .plain)
    (hcaptions : (s.shown t).map Tree.caption = (s'.shown t').map Tree.caption)
    (hnames : ∀ v ∈ (s.calls t).filterMap Tree.stepVariable?, s.contract? v = s'.contract? v) :
    s.plainMarks t = s'.plainMarks t' := by
  have hform' : t'.form = .plain := Tree.congr_of_outline Tree.form_outline h ▸ hform
  have hkind : t.kind = t'.kind := Tree.congr_of_outline Tree.kind_outline h
  simp only [shown, hform, hform'] at hcaptions
  cases hlike with
  | contract =>
    have hcaption : t.caption = t'.caption := by simpa using hcaptions
    simp only [plainMarks, dialect, Dialect.contract, hcaption, List.not_mem_nil, if_false]
  | scenario names names' =>
    by_cases hdeclaration : t.kind ∈ Tree.declarationKinds
    · rw [plainMarks_declaration hdeclaration, plainMarks_declaration (hkind ▸ hdeclaration)]
    · by_cases hexpression : t.kind = "expression_statement"
      · rw [plainMarks_expression hexpression, plainMarks_expression (hkind ▸ hexpression)]
        exact steps_congr h (by simp [hexpression]) hcaptions hnames
      · rw [plainMarks_other hdeclaration hexpression,
          plainMarks_other (hkind ▸ hdeclaration) (hkind ▸ hexpression), Dialect.unsupported,
          Dialect.unsupported, Tree.unsupportedLabel, Tree.unsupportedLabel, hkind]

/-- The label of a loop is the same for statements that correspond. -/
lemma loopLabel_congr (h : t.outline = t'.outline) {form : LoopForm}
    (hform : t.form = .loop form)
    (hcaptions : (s.shown t).map Tree.caption = (s'.shown t').map Tree.caption) :
    t.loopLabel form = t'.loopLabel form := by
  have hform' : t'.form = .loop form := Tree.congr_of_outline Tree.form_outline h ▸ hform
  have htraversal : t.traversal = t'.traversal := Tree.congr_of_outline Tree.traversal_outline h
  cases form with
  | counting => rfl
  | _ =>
    simp only [shown, hform, hform'] at hcaptions
    simp only [Tree.loopLabel, htraversal, captioned_congr _ hcaptions]

/-- **What is drawn for a statement** depends on its outline, on its own captions and on what is
drawn for its parts. Dead code is not drawn. -/
lemma Like.draw_of_parts (hlike : s.Like s') (h : t.outline = t'.outline)
    (hcaptions : (s.shown t).map Tree.caption = (s'.shown t').map Tree.caption)
    (hnames : ∀ v ∈ (s.calls t).filterMap Tree.stepVariable?, s.contract? v = s'.contract? v)
    (hparts : t.parts.map (fun c => (Stmt.ofTree s.dialect c).draw) =
      t'.parts.map fun c => (Stmt.ofTree s'.dialect c).draw) :
    (Stmt.ofTree s.dialect t).draw = (Stmt.ofTree s'.dialect t').draw := by
  have hform : t.form = t'.form := Tree.congr_of_outline Tree.form_outline h
  rw [Stmt.ofTree_eq, Stmt.ofTree_eq, ← hform]
  simp only [Tree.parts, ← hform] at hparts
  cases hcase : t.form with
  | block =>
    simp only [hcase] at hparts
    simp only [Stmt.draw]
    rw [Stmt.drawAll_reached, Stmt.drawAll_reached s'.dialect]
    exact Stmt.drawAll_congr (by simpa [Function.comp_def] using hparts)
  | branch =>
    have hlength : (t.child? "consequence").toList.length =
        (t'.child? "consequence").toList.length :=
      Tree.congr_of_outline (f := fun t => (t.child? "consequence").toList.length)
        (by simp [Option.toList_map]) h
    simp only [hcase, List.map_append] at hparts
    obtain ⟨htrue, hfalse⟩ := List.append_inj hparts (by simpa using hlength)
    simp only [shown, hcase, ← hform] at hcaptions
    simp only [Stmt.draw, Stmt.draw_elim, htrue, hfalse, Tree.branchLabel,
      captioned_congr _ hcaptions]
  | loop form =>
    simp only [hcase] at hparts
    simp only [Stmt.draw, Stmt.draw_elim, hparts, loopLabel_congr h hcase hcaptions]
  | leave => simp only [Stmt.draw, hlike.leaving_congr h hcase hcaptions hnames]
  | fail =>
    simp only [shown, hcase, ← hform] at hcaptions
    simp only [Stmt.draw, Tree.failLabel, captioned_congr _ hcaptions]
  | unsupported =>
    have hkind : t.kind = t'.kind := Tree.congr_of_outline Tree.kind_outline h
    simp only [Dialect.unsupported, Tree.unsupportedLabel, hkind]
  | blank => rfl
  | plain =>
    have hmarks := hlike.plainMarks_congr h hcase hcaptions hnames
    simp only [plainMarks] at hmarks
    simp only [Stmt.draw, hmarks]

/-- **Statements that correspond are drawn alike.**

**Proof sketch.** By induction on the size of the statement. The captions fall apart into those of
the statement and those of its parts, so the parts are drawn alike, and this is all that matters
besides the captions of the statement itself (`Like.draw_of_parts`). -/
theorem Like.draw_congr (hlike : s.Like s') {t t' : Tree} (h : t.outline = t'.outline)
    (hcaptions : s.captions t = s'.captions t')
    (hnames : ∀ u ∈ t.walked, ∀ v ∈ (s.calls u).filterMap Tree.stepVariable?,
      s.contract? v = s'.contract? v) :
    (Stmt.ofTree s.dialect t).draw = (Stmt.ofTree s'.dialect t').draw := by
  have houtlines : t.parts.map Tree.outline = t'.parts.map Tree.outline := by
    rw [← Tree.parts_outline, h, Tree.parts_outline]
  rw [Tree.walked_eq] at hnames
  obtain ⟨hnamesOwn, hnamesParts⟩ := List.forall_mem_cons.mp hnames
  obtain ⟨hown, hrest⟩ := hlike.captions_inj h hcaptions
  have hparts : t.parts.map (fun c => (Stmt.ofTree s.dialect c).draw) =
      t'.parts.map fun c => (Stmt.ofTree s'.dialect c).draw := by
    refine Tree.map_congr_of_flatMap houtlines (fun _ _ => hlike.length_captions) hrest ?_
    intro c hc c' hsame hcaption
    have hinside : ∀ u ∈ c.walked, u ∈ t.parts.flatMap Tree.walked := fun u hu =>
      List.mem_flatMap.mpr ⟨c, hc, hu⟩
    exact hlike.draw_congr hsame hcaption fun u hu => hnamesParts u (hinside u hu)
  exact hlike.draw_of_parts h hown hnamesOwn hparts
termination_by sizeOf t
decreasing_by
  exact Tree.sizeOf_lt_of_mem_parts hc

/-- What is shown for a block of statements is what is shown for the statements. -/
lemma bodyShown_block {body : Tree} (h : body.kind = "statement_block") :
    s.bodyShown body = body.walked.flatMap s.shown :=
  if_pos h

/-- The calls that are shown for a block of statements are those of the statements. -/
lemma bodyCalls_block {body : Tree} (h : body.kind = "statement_block") :
    s.bodyCalls body = body.walked.flatMap s.calls :=
  if_pos h

/-- **Function bodies that correspond are drawn alike.** -/
lemma Like.drawBody_congr (hlike : s.Like s') {body body' : Tree}
    (h : body.outline = body'.outline) (hblock : body.kind = "statement_block")
    (hcaptions : (s.bodyShown body).map Tree.caption = (s'.bodyShown body').map Tree.caption)
    (hnames : ∀ v ∈ (s.bodyCalls body).filterMap Tree.stepVariable?,
      s.contract? v = s'.contract? v) :
    Stmt.drawAll (Stmt.ofForest s.dialect body.children) =
      Stmt.drawAll (Stmt.ofForest s'.dialect body'.children) := by
  have hdraw : ∀ (d : Dialect) (b : Tree), b.kind = "statement_block" →
      Stmt.drawAll (Stmt.ofForest d b.children) = (Stmt.ofTree d b).draw := fun d b hb => by
    rw [Stmt.ofTree_eq, (Tree.form_eq_iff .block).mpr hb, Stmt.ofForest_eq]
    rfl
  have hblock' : body'.kind = "statement_block" :=
    Tree.congr_of_outline Tree.kind_outline h ▸ hblock
  rw [bodyShown_block hblock, bodyShown_block hblock'] at hcaptions
  rw [bodyCalls_block hblock] at hnames
  rw [hdraw _ _ hblock, hdraw _ _ hblock']
  refine hlike.draw_congr h hcaptions fun u hu v hv => hnames v ?_
  obtain ⟨call, hcall, hvariable⟩ := List.mem_filterMap.mp hv
  exact List.mem_filterMap.mpr ⟨call, List.mem_flatMap.mpr ⟨u, hu, hcall⟩, hvariable⟩

end Setting

/-! ## Owners that correspond -/

namespace Tree

/-- Two trees that may be missing have the same outline if both are missing, or if neither is and
they have the same outline. -/
lemma eq_none_or_of_map_outline {o o' : Option Tree} (h : o.map outline = o'.map outline) :
    (o = none ∧ o' = none) ∨ ∃ t t', o = some t ∧ o' = some t' ∧ t.outline = t'.outline := by
  cases o <;> cases o' <;> simp_all

/-- What fills a field of trees with the same outline has the same outline. -/
lemma map_child?_congr {t t' : Tree} (h : t.outline = t'.outline) (field : String) :
    (t.child? field).map outline = (t'.child? field).map outline := by
  rw [← child?_outline, h, child?_outline]

/-- What is read off the trees in rows with the same outlines is the same if it is so for each two
trees in the rows. -/
lemma map_congr_of_outlines {β : Type} {k k' : Tree → β} {xs ys : List Tree}
    (h : xs.map outline = ys.map outline)
    (hk : ∀ x ∈ xs, ∀ y, x.outline = y.outline → k x = k' y) : xs.map k = ys.map k' := by
  have hnil : ∀ zs : List Tree, zs.flatMap (fun _ => ([] : List Unit)) = [] := fun zs =>
    List.flatMap_eq_nil_iff.mpr fun _ _ => rfl
  exact map_congr_of_flatMap h (fun _ _ _ => rfl) ((hnil xs).trans (hnil ys).symm)
    fun x hx y hxy _ => hk x hx y hxy

end Tree

namespace Contract

variable {root root' object object' : Tree}

/-- The preconditions of contracts that correspond have the same tags. -/
lemma guards_congr (h : (Owner.contract root object).Corresponds (.contract root' object')) :
    (ofObject root object).guards = (ofObject root' object').guards := by
  have houtline : object.outline = object'.outline := h.outline_eq
  have helements : (Tree.elements (object.arrayProperty? "pre")).map Tree.outline =
      (Tree.elements (object'.arrayProperty? "pre")).map Tree.outline := by
    rw [← Tree.elements_map_outline, ← Tree.arrayProperty?_outline, houtline,
      Tree.arrayProperty?_outline, Tree.elements_map_outline]
  refine Tree.map_congr_of_outlines helements fun guard hguard guard' hsame =>
    Tree.guardTags_congr hsame fun v hv => h.initializers_eq v ?_
  exact List.mem_filterMap.mpr ⟨guard, hguard, hv⟩

/-- Contracts that correspond have the same number of checks of a name. -/
lemma length_elements_congr (h : object.outline = object'.outline) (name : String) :
    (Tree.elements (object.arrayProperty? name)).length =
      (Tree.elements (object'.arrayProperty? name)).length :=
  Tree.congr_of_outline (f := fun t => (Tree.elements (t.arrayProperty? name)).length)
    (by simp) h

/-- The functions of transitions are drawn alike if they have the same outline and show the same
captions. -/
lemma ofFunction_congr {f f' : Tree} (h : f.outline = f'.outline)
    (hcaptions : ((f.child? "body").toList.flatMap Setting.contract.bodyShown).map Tree.caption =
      ((f'.child? "body").toList.flatMap Setting.contract.bodyShown).map Tree.caption) :
    Drawing.transition (.ofFunction f) = Drawing.transition (.ofFunction f') := by
  unfold Transition.ofFunction
  rcases Tree.eq_none_or_of_map_outline (Tree.map_child?_congr h "body") with
    ⟨hnone, hnone'⟩ | ⟨body, body', hbody, hbody', hsame⟩
  · rw [hnone, hnone']
  · have hkind : body.kind = body'.kind := Tree.congr_of_outline Tree.kind_outline hsame
    simp only [hbody, hbody', Option.toList_some, List.flatMap_singleton, ← hkind] at hcaptions ⊢
    by_cases hblock : body.kind = "statement_block"
    · rw [if_pos hblock, if_pos hblock]
      exact Setting.Like.contract.drawBody_congr hsame hblock hcaptions fun v _ => rfl
    · simp only [Setting.bodyShown, ← hkind, if_neg hblock] at hcaptions ⊢
      have hcaption : body.caption = body'.caption := by simpa using hcaptions
      rw [hcaption]

/-- The transitions of contracts that correspond are drawn alike. -/
lemma transition_congr (h : (Owner.contract root object).Corresponds (.contract root' object')) :
    Drawing.transition (ofObject root object).transition =
      Drawing.transition (ofObject root' object').transition := by
  have houtline : object.outline = object'.outline := h.outline_eq
  have hfunctions : (object.functionProperty? "transition").map Tree.outline =
      (object'.functionProperty? "transition").map Tree.outline := by
    rw [← Tree.functionProperty?_outline, houtline, Tree.functionProperty?_outline]
  have hcaptions := h.captions_eq
  simp only [Owner.shown, Owner.body?, Owner.setting] at hcaptions
  unfold ofObject
  rcases Tree.eq_none_or_of_map_outline hfunctions with
    ⟨hnone, hnone'⟩ | ⟨f, f', hf, hf', hsame⟩
  · simp only [hnone, hnone']
  · simp only [hf, hf', Option.bind_some] at hcaptions ⊢
    exact ofFunction_congr hsame hcaptions

/-- **Contracts that correspond are drawn alike.** -/
lemma drawing_congr (h : (Owner.contract root object).Corresponds (.contract root' object')) :
    Drawing.contract (ofObject root object) = Drawing.contract (ofObject root' object') := by
  have hpost : (ofObject root object).postconditions = (ofObject root' object').postconditions :=
    length_elements_congr h.outline_eq "post"
  have hinvariant : (ofObject root object).invariants = (ofObject root' object').invariants :=
    length_elements_congr h.outline_eq "invariant"
  simp only [Drawing.contract, guards_congr h, transition_congr h, hpost, hinvariant]

end Contract

namespace Scenario

variable {names names' : Names} {function function' : Tree}

/-- **Scenarios that correspond are drawn alike.** -/
lemma drawing_congr
    (h : (Owner.scenario names function).Corresponds (.scenario names' function')) :
    Drawing.scenario (ofFunction names function) =
      Drawing.scenario (ofFunction names' function') := by
  have houtline : function.outline = function'.outline := h.outline_eq
  have hcaptions := h.captions_eq
  have hnames := h.contracts_eq
  simp only [Owner.shown, Owner.stepVariables, Owner.body?, Owner.setting] at hcaptions hnames
  unfold ofFunction
  rcases Tree.eq_none_or_of_map_outline (Tree.map_child?_congr houtline "body") with
    ⟨hnone, hnone'⟩ | ⟨body, body', hbody, hbody', hsame⟩
  · rw [hnone, hnone']
  · have hkind : body.kind = body'.kind := Tree.congr_of_outline Tree.kind_outline hsame
    have harray : body.unwrap.kind = body'.unwrap.kind :=
      Tree.congr_of_outline (f := fun t => t.unwrap.kind) (by simp) hsame
    simp only [hbody, hbody', Option.toList_some, List.flatMap_singleton, ← hkind, ← harray]
      at hcaptions hnames ⊢
    have hlike := Setting.Like.scenario names names'
    by_cases hblock : body.kind = "statement_block"
    · rw [if_pos hblock, if_pos hblock]
      have hdraw := hlike.drawBody_congr hsame hblock hcaptions hnames
      exact congrArg (Drawing.settle none) hdraw
    · simp only [Setting.bodyShown, Setting.bodyCalls, ← hkind, ← harray, if_neg hblock]
        at hcaptions hnames ⊢
      by_cases hsteps : body.unwrap.kind = "array"
      · simp only [if_pos hsteps] at hcaptions hnames ⊢
        have hcalls : body.stepCalls.map Tree.outline = body'.stepCalls.map Tree.outline := by
          rw [← Tree.stepCalls_outline, hsame, Tree.stepCalls_outline]
        rw [Tree.stepLabels_eq_map, Tree.stepLabels_eq_map,
          Tree.map_stepLabel_congr hcalls hcaptions hnames]
      · rw [if_neg hsteps, if_neg hsteps]

end Scenario

namespace Owner

variable {o o' : Owner}

/-- **An artifact depends only on its own code.** Owners that correspond have the same artifact
under the same name. They may differ in comments, in layout, and in all that is around them.

**Proof sketch.** What is read off a tree as a name or a shape is read off its outline, and
everything else is a caption. So the two owners are drawn alike, and an artifact is made of the
drawing. -/
theorem artifact_congr (h : o.Corresponds o') (id : String) :
    ∃ a, o.artifact id = .ok a ∧ o'.artifact id = .ok a := by
  obtain ⟨a, ha⟩ := o.exists_artifact id
  have hkind := h.kind_eq
  have hdraft : o.draft = o'.draft := by
    cases o with
    | contract root object =>
      cases o' with
      | contract root' object' =>
        exact congrArg (Drawing.chart "ok") (Contract.drawing_congr h)
      | scenario names' function' => cases hkind
    | scenario names function =>
      cases o' with
      | contract root' object' => cases hkind
      | scenario names' function' =>
        exact congrArg (Drawing.chart "end") (Scenario.drawing_congr h)
  refine ⟨a, ha, ?_⟩
  rw [artifact_eq, ← hkind, ← hdraft, ← artifact_eq, ha]

/-- The body `{ return a + b; }` of a transition. -/
def compactBody : Tree :=
  .node ⟨8, "statement_block", true, some "body", 1, "\x7b return a + b; \x7d"⟩ [
    .node ⟨9, "return_statement", true, none, 1, "return a + b;"⟩ [
      .node ⟨10, "binary_expression", true, none, 1, "a + b"⟩ []]]

/-- The contract `{ pre: [known], transition: () => { return a + b; } }`. -/
def compactContract : Tree :=
  .node ⟨0, "object", true, none, 1, "\x7b pre: [known], transition: () => ... \x7d"⟩ [
    .node ⟨1, "pair", true, none, 1, "pre: [known]"⟩ [
      .node ⟨2, "property_identifier", true, some "key", 1, "pre"⟩ [],
      .node ⟨3, "array", true, some "value", 1, "[known]"⟩ [
        .node ⟨4, "identifier", true, none, 1, "known"⟩ []]],
    .node ⟨5, "pair", true, none, 1, "transition: () => ..."⟩ [
      .node ⟨6, "property_identifier", true, some "key", 1, "transition"⟩ [],
      .node ⟨7, "arrow_function", true, some "value", 1, "() => ..."⟩ [compactBody]]]

/-- A script with another statement in it. -/
def longerScript : Tree :=
  .node ⟨0, "program", true, none, 1, "use();"⟩ [
    .node ⟨1, "expression_statement", true, none, 1, "use();"⟩ []]

/-- The same body on several lines, with a comment. -/
def commentedBody : Tree :=
  .node ⟨13, "statement_block", true, some "body", 4, "\x7b\n// sum\nreturn a +\n  b; \x7d"⟩ [
    .node ⟨14, "comment", true, none, 5, "// sum"⟩ [],
    .node ⟨15, "return_statement", true, none, 6, "return a +\n  b;"⟩ [
      .node ⟨16, "binary_expression", true, none, 6, "a +\n  b"⟩ []]]

/-- The same contract on several lines, with comments. -/
def commentedContract : Tree :=
  .node ⟨4, "object", true, none, 3, "\x7b pre: [ known /* by id */ ],\n transition: ... \x7d"⟩ [
    .node ⟨5, "pair", true, none, 3, "pre: [ known /* by id */ ]"⟩ [
      .node ⟨6, "property_identifier", true, some "key", 3, "pre"⟩ [],
      .node ⟨7, "array", true, some "value", 3, "[ known /* by id */ ]"⟩ [
        .node ⟨8, "identifier", true, none, 3, "known"⟩ [],
        .node ⟨9, "comment", true, none, 3, "/* by id */"⟩ []]],
    .node ⟨10, "pair", true, none, 4, "transition: () => ..."⟩ [
      .node ⟨11, "property_identifier", true, some "key", 4, "transition"⟩ [],
      .node ⟨12, "arrow_function", true, some "value", 4, "() => ..."⟩ [commentedBody]]]

/-- What is shown for a body that returns a value at once is the value. -/
lemma bodyShown_of_return {body statement value : Tree} (hblock : body.kind = "statement_block")
    (hstatement : body.codeChildren = [statement]) (hreturn : statement.kind = "return_statement")
    (hvalue : statement.firstCode? = some value) :
    Setting.contract.bodyShown body = [value] := by
  have hform := (Tree.form_eq_iff .block).mpr hblock
  have hleave := (Tree.form_eq_iff .leave).mpr hreturn
  have hparts : body.parts = [statement] := by
    simp [Tree.parts, hform, hstatement, Tree.reached]
  have hnone : statement.parts = [] := by
    simp [Tree.parts, hleave]
  rw [Setting.bodyShown_block hblock, Tree.walked_eq, hparts, List.flatMap_singleton,
    Tree.walked_eq, hnone]
  simp [Setting.shown, hform, hleave, hvalue]

/-- **Comments and line breaks** in a contract leave its artifact as it is, and so do the other
statements of the script. -/
theorem artifact_congr_of_comments :
    (contract .blank compactContract).Corresponds (contract longerScript commentedContract) ∧
      ∃ a, (contract .blank compactContract).artifact "sum" = .ok a ∧
        (contract longerScript commentedContract).artifact "sum" = .ok a := by
  -- the only caption that both show is that of the returned sum
  have hshown : (contract .blank compactContract).shown.map Tree.caption = ["a + b"] ∧
      (contract longerScript commentedContract).shown.map Tree.caption = ["a + b"] := by
    have hcompact : Setting.contract.bodyShown compactBody = _ :=
      bodyShown_of_return rfl rfl rfl rfl
    have hcommented : Setting.contract.bodyShown commentedBody = _ :=
      bodyShown_of_return rfl rfl rfl rfl
    exact ⟨congrArg (fun ts => (ts ++ []).map Tree.caption) hcompact,
      congrArg (fun ts => (ts ++ []).map Tree.caption) hcommented⟩
  have hcorresponds :
      (contract .blank compactContract).Corresponds (contract longerScript commentedContract) := by
    refine ⟨rfl, rfl, hshown.1.trans hshown.2.symm, fun v hv => ?_, fun v _ => rfl⟩
    obtain rfl := List.mem_singleton.mp hv
    rfl
  exact ⟨hcorresponds, artifact_congr hcorresponds "sum"⟩

end Owner

end Flowchart
