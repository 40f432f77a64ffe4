import Flowchart.Flow.Dialect
import Flowchart.Proofs.Flow.Choice
import Flowchart.Proofs.Flow.Run
import Flowchart.Proofs.Flow.Steps

set_option relaxedAutoImplicit false
set_option autoImplicit false

/-!
# The flow of statements

The drawing of a statement realizes the runs of the statement, in contracts and in scenarios, for
every syntax tree.

## Main definitions

* `Flowchart.Setting.dialect`: how statements are read where they run.
* `Flowchart.Setting.behavior`: what a statement does, by its form.

## Main results

* `Flowchart.Setting.realizes_run`: a drawn statement has exactly the walks of its runs.
* `Flowchart.Setting.realizes_runAll`: the same for statements one behind the other.
-/

namespace Flowchart

/-! ## Forms and kinds -/

/-- The kinds that statements of a form have. -/
def Form.HasKind : Form → String → Prop
  | .block, kind => kind = "statement_block"
  | .branch, kind => kind = "if_statement"
  | .loop form, kind => kind = form.kind
  | .leave, kind => kind = "return_statement"
  | .fail, kind => kind = "throw_statement"
  | .unsupported, kind => kind ∈ Tree.untracedKinds
  | .blank, kind => kind ∈ Tree.blankKinds
  | .plain, kind => kind ∉ Tree.controlKinds

/-- A tested form has a kind if it does in both cases of the test. -/
lemma Form.hasKind_ite {c : Prop} [Decidable c] {form form' : Form} {kind : String}
    (h : c → form.HasKind kind) (h' : ¬ c → form'.HasKind kind) :
    (if c then form else form').HasKind kind :=
  iteInduction (motive := (HasKind · kind)) h h'

/-- Every kind is one of the kinds of its form. -/
lemma Form.hasKind_ofKind (kind : String) : (Form.ofKind kind).HasKind kind := by
  -- the tests of `ofKind` in their order
  refine hasKind_ite id fun hblock => hasKind_ite id fun hbranch => ?_
  refine hasKind_ite id fun hcounting => hasKind_ite id fun htraversing => ?_
  refine hasKind_ite id fun htestFirst => hasKind_ite id fun htestLast => ?_
  refine hasKind_ite id fun hleave => hasKind_ite id fun hfail => ?_
  refine hasKind_ite id fun huntraced => hasKind_ite (fun hblank => ?_) fun hblank => ?_
  · exact List.mem_pair.mpr (List.mem_pair.mp hblank).symm
  · intro hcontrol
    simp only [Tree.controlKinds, Tree.blankKinds, Tree.untracedKinds, List.mem_append,
      List.mem_cons, List.not_mem_nil, or_false] at hcontrol huntraced hblank
    tauto

/-- A kind has the form that it is one of the kinds of. -/
lemma Form.ofKind_eq {form : Form} {kind : String} (h : form.HasKind kind) :
    Form.ofKind kind = form := by
  cases form with
  | block => exact h ▸ rfl
  | branch => exact h ▸ rfl
  | loop form => cases form <;> exact h ▸ rfl
  | leave => exact h ▸ rfl
  | fail => exact h ▸ rfl
  | unsupported =>
    simp only [HasKind, Tree.untracedKinds, List.mem_cons, List.not_mem_nil, or_false] at h
    rcases h with rfl | rfl | rfl | rfl <;> rfl
  | blank =>
    rcases List.mem_pair.mp h with rfl | rfl <;> rfl
  | plain =>
    simp only [HasKind, Tree.controlKinds, Tree.blankKinds, Tree.untracedKinds, List.cons_append,
      List.nil_append, List.mem_cons, List.not_mem_nil, or_false, not_or] at h
    simp [ofKind, h]

namespace Tree

variable {t : Tree}

/-- **The form of a statement** is determined by its kind. -/
lemma form_eq_iff (form : Form) : t.form = form ↔ form.HasKind t.kind :=
  ⟨fun h => h ▸ Form.hasKind_ofKind t.kind, Form.ofKind_eq⟩

/-- What a choice runs if its condition is false is smaller than the choice. -/
lemma sizeOf_lt_of_mem_alternative? {c : Tree} (h : c ∈ t.alternative?) : sizeOf c < sizeOf t := by
  obtain ⟨a, ha, hc⟩ := Option.bind_eq_some_iff.mp h
  have hat : sizeOf a < sizeOf t := sizeOf_lt_of_mem_child? ha
  split_ifs at hc
  · exact Nat.lt_trans (sizeOf_lt_of_mem_codeChildren (List.mem_of_mem_head? hc)) hat
  · obtain rfl := Option.some.inj hc
    exact hat

end Tree

/-! ## Statements that are read off trees -/

namespace Stmt

variable (d : Dialect)

/-- The statements of the code trees among siblings. -/
lemma ofForest_eq (cs : List Tree) :
    ofForest d cs = (cs.filter Tree.isCode).map (ofTree d) := by
  induction cs with
  | nil => rfl
  | cons c cs ih =>
    rw [ofForest, List.filter_cons, ih]
    split_ifs <;> rfl

/-- The statement in a field, if there is one. -/
lemma ofField_eq (field : String) (cs : List Tree) :
    ofField d field cs = ((cs.find? fun c => c.head.field == some field).elim skip (ofTree d)) := by
  induction cs with
  | nil => rfl
  | cons c cs ih =>
    by_cases hc : c.head.field = some field <;> simp [ofField, hc, ih]

/-- The first statement among siblings, if there is one. -/
lemma ofFirst_eq (cs : List Tree) :
    ofFirst d cs = (cs.filter Tree.isCode).head?.elim skip (ofTree d) := by
  induction cs with
  | nil => rfl
  | cons c cs ih =>
    rw [ofFirst, List.filter_cons, ih]
    split_ifs <;> rfl

/-- The statement that a choice runs if its condition is false. -/
lemma ofAlternative_eq (t : Tree) :
    ofAlternative d t.children = t.alternative?.elim skip (ofTree d) := by
  rw [Tree.alternative?, Tree.child?]
  induction t.children with
  | nil => rfl
  | cons c cs ih =>
    cases c with
    | node h cs' =>
      by_cases hf : h.field = some "alternative"
      · by_cases hk : h.kind = "else_clause" <;>
          simp [ofAlternative, hf, hk, ofFirst_eq, Tree.kind, Tree.firstCode?, Tree.codeChildren]
      · simp [ofAlternative, hf, ih]

/-- The statement of a tree by the form of the tree. -/
lemma ofTree_eq (t : Tree) :
    ofTree d t = match t.form with
      | .block => .block (t.codeChildren.map (ofTree d))
      | .branch => .branch t.branchLabel ((t.child? "consequence").elim skip (ofTree d))
          (t.alternative?.elim skip (ofTree d))
      | .loop form => .loop (t.loopLabel form) ((t.child? "body").elim skip (ofTree d))
      | .leave => .leave (d.leaving t)
      | .fail => .fail t.failLabel
      | .unsupported => .emit [Dialect.unsupported t]
      | .blank => .skip
      | .plain => .emit (if t.kind ∈ d.silent then [] else d.plain t) := by
  have hforest : ofForest d t.children = t.codeChildren.map (ofTree d) := ofForest_eq d t.children
  have hfield : ∀ field, ofField d field t.children = (t.child? field).elim skip (ofTree d) :=
    fun field => ofField_eq d field t.children
  have halternative := ofAlternative_eq d t
  cases t with
  | node h cs =>
    simp only [Tree.children_node] at hforest hfield halternative
    rw [ofTree, hforest, hfield, hfield, halternative]
    cases (Tree.node h cs).form with
    | plain =>
      change (if _ then _ else _) = _
      split_ifs <;> rfl
    | _ => rfl

end Stmt

/-! ## Runs by the form of a statement -/

namespace Setting

variable {s : Setting} {t : Tree} {ts : List Tree} {l : Option String} {w : Word} {o : Completion}

/-- How statements are read where they run. -/
def dialect : Setting → Dialect
  | contract => .contract
  | scenario names => .scenario names

/-- The nodes that a plain statement passes. -/
def plainMarks (s : Setting) (t : Tree) : List Mark :=
  if t.kind ∈ s.dialect.silent then [] else s.dialect.plain t

/-- In a scenario declarations pass no nodes. -/
lemma plainMarks_declaration {names : Names} (h : t.kind ∈ Tree.declarationKinds) :
    (scenario names).plainMarks t = [] :=
  if_pos h

/-- In a scenario expressions pass the nodes of their steps. -/
lemma plainMarks_expression {names : Names} (h : t.kind = "expression_statement") :
    (scenario names).plainMarks t = Dialect.steps names t.firstCode? := by
  simp [plainMarks, dialect, Dialect.scenario, h]

/-- In a scenario all other plain statements pass a node that says so. -/
lemma plainMarks_other {names : Names} (h : t.kind ∉ Tree.declarationKinds)
    (h' : t.kind ≠ "expression_statement") :
    (scenario names).plainMarks t = [Dialect.unsupported t] :=
  (if_neg h).trans (if_neg h')

/-- What a statement does, by its form and by what the statements in it do. -/
def behavior (s : Setting) (t : Tree) : Behavior :=
  match t.form with
  | .block => RunAll s t.codeChildren
  | .branch => .branch t.branchLabel (RunAll s (t.child? "consequence").toList)
      (RunAll s t.alternative?.toList)
  | .loop form => .loop (t.loopLabel form) (RunAll s (t.child? "body").toList)
  | .leave => .leaving (.pass (s.dialect.leaving t))
  | .fail => .stop ⟨.error, t.failLabel⟩
  | .unsupported => .pass [Dialect.unsupported t]
  | .blank => .pass []
  | .plain => .pass (s.plainMarks t)

/-- Statements whose kinds have no rule of their own pass their nodes. -/
lemma behavior_plain (h : t.kind ∉ Tree.controlKinds) : s.behavior t = .pass (s.plainMarks t) := by
  rw [behavior, (Tree.form_eq_iff .plain).mpr h]

/-- The runs of a statement follow its form. -/
lemma behavior_of_run (h : Run s t l w o) : s.behavior t l w o := by
  cases h with
  | blank h =>
    rw [behavior, (Tree.form_eq_iff .blank).mpr h]
    exact ⟨rfl, rfl⟩
  | block h hrun =>
    rw [behavior, (Tree.form_eq_iff .block).mpr h]
    exact hrun
  | whenTrue h hrun =>
    rw [behavior, (Tree.form_eq_iff .branch).mpr h]
    exact ⟨_, rfl, .inl hrun⟩
  | whenFalse h hrun =>
    rw [behavior, (Tree.form_eq_iff .branch).mpr h]
    exact ⟨_, rfl, .inr hrun⟩
  | loopDone form rounds h hrounds =>
    rw [behavior, (Tree.form_eq_iff (.loop form)).mpr h]
    exact ⟨rounds, hrounds, [], by rw [List.append_nil], .inl ⟨rfl, rfl⟩⟩
  | loopLeft form rounds h hrounds hlast hfinal =>
    rw [behavior, (Tree.form_eq_iff (.loop form)).mpr h]
    exact ⟨rounds, hrounds, _, rfl, .inr ⟨hlast, hfinal⟩⟩
  | fail h =>
    rw [behavior, (Tree.form_eq_iff .fail).mpr h]
    exact ⟨rfl, rfl⟩
  | untraced h =>
    rw [behavior, (Tree.form_eq_iff .unsupported).mpr h]
    exact ⟨rfl, rfl⟩
  | action h =>
    rw [behavior_plain h]
    exact ⟨rfl, rfl⟩
  | actionLeave h =>
    rw [behavior, (Tree.form_eq_iff .leave).mpr h]
    exact ⟨_, ⟨rfl, rfl⟩, rfl⟩
  | declaration h =>
    have hplain : t.kind ∉ Tree.controlKinds := by
      rcases List.mem_pair.mp h with h | h <;> rw [h] <;> decide
    rw [behavior_plain hplain, plainMarks_declaration h]
    exact ⟨rfl, rfl⟩
  | steps h he =>
    rw [behavior_plain (h ▸ by decide), plainMarks_expression h, he]
    exact ⟨rfl, rfl⟩
  | noExpression h he =>
    rw [behavior_plain (h ▸ by decide), plainMarks_expression h, he]
    exact ⟨rfl, rfl⟩
  | stepsLeave h he =>
    rw [behavior, (Tree.form_eq_iff .leave).mpr h]
    simp only [dialect, Dialect.scenario, he]
    exact ⟨_, ⟨rfl, rfl⟩, rfl⟩
  | leave h he =>
    rw [behavior, (Tree.form_eq_iff .leave).mpr h]
    simp only [dialect, Dialect.scenario, he]
    exact ⟨_, ⟨rfl, rfl⟩, rfl⟩
  | other h hdeclaration hexpression =>
    rw [behavior_plain h, plainMarks_other hdeclaration hexpression]
    exact ⟨rfl, rfl⟩

/-- Whatever follows the form of a statement is one of its runs. -/
lemma run_of_behavior (h : s.behavior t l w o) : Run s t l w o := by
  unfold behavior at h
  cases hform : t.form with
  | block =>
    rw [hform] at h
    exact .block ((Tree.form_eq_iff _).mp hform) h
  | branch =>
    rw [hform] at h
    have hkind := (Tree.form_eq_iff _).mp hform
    obtain ⟨v, rfl, hrun | hrun⟩ := h
    · exact .whenTrue hkind hrun
    · exact .whenFalse hkind hrun
  | loop form =>
    rw [hform] at h
    have hkind := (Tree.form_eq_iff _).mp hform
    obtain ⟨rounds, hrounds, v, rfl, ⟨rfl, rfl⟩ | ⟨hlast, hfinal⟩⟩ := h
    · rw [List.append_nil]
      exact .loopDone form rounds hkind hrounds
    · exact .loopLeft form rounds hkind hrounds hlast hfinal
  | leave =>
    rw [hform] at h
    have hkind := (Tree.form_eq_iff _).mp hform
    obtain ⟨o', ⟨rfl, rfl⟩, rfl⟩ := h
    cases s with
    | contract => exact .actionLeave hkind
    | scenario names =>
      simp only [dialect, Dialect.scenario]
      cases he : t.firstCode? with
      | none => exact .leave hkind he
      | some e => exact .stepsLeave hkind he
  | fail =>
    rw [hform] at h
    obtain ⟨rfl, rfl⟩ := h
    exact .fail ((Tree.form_eq_iff _).mp hform)
  | unsupported =>
    rw [hform] at h
    obtain ⟨rfl, rfl⟩ := h
    exact .untraced ((Tree.form_eq_iff _).mp hform)
  | blank =>
    rw [hform] at h
    obtain ⟨rfl, rfl⟩ := h
    exact .blank ((Tree.form_eq_iff _).mp hform)
  | plain =>
    rw [hform] at h
    have hkind := (Tree.form_eq_iff _).mp hform
    obtain ⟨rfl, rfl⟩ := h
    cases s with
    | contract => exact .action hkind
    | scenario names =>
      by_cases hdeclaration : t.kind ∈ Tree.declarationKinds
      · rw [plainMarks_declaration hdeclaration]
        exact .declaration hdeclaration
      · by_cases hexpression : t.kind = "expression_statement"
        · rw [plainMarks_expression hexpression]
          cases he : t.firstCode? with
          | none => exact .noExpression hexpression he
          | some e => exact .steps hexpression he
        · rw [plainMarks_other hdeclaration hexpression]
          exact .other hkind hdeclaration hexpression

/-- **The runs of a statement** are its behavior by form. -/
lemma run_iff : Run s t l w o ↔ s.behavior t l w o :=
  ⟨behavior_of_run, run_of_behavior⟩

/-! ## Runs of several statements -/

/-- No statements do nothing. -/
lemma runAll_nil_iff : RunAll s [] l w o ↔ Behavior.pass [] l w o := by
  constructor
  · intro h
    cases h
    exact ⟨rfl, rfl⟩
  · rintro ⟨rfl, rfl⟩
    exact .nil

/-- Behind a statement that goes on the others are run. -/
lemma runAll_cons_iff :
    RunAll s (t :: ts) l w o ↔ Behavior.andThen (Run s t) (RunAll s ts) l w o := by
  constructor
  · intro h
    cases h with
    | next hrun hrest => exact .inr ⟨_, _, _, hrun, hrest, rfl⟩
    | halt hrun hfinal => exact .inl ⟨hrun, hfinal⟩
  · rintro (⟨hrun, hfinal⟩ | ⟨u, m, v, hrun, hrest, rfl⟩)
    · exact .halt hrun hfinal
    · exact .next hrun hrest

/-- A single statement is run by itself. -/
lemma runAll_singleton_iff : RunAll s [t] l w o ↔ Run s t l w o := by
  rw [runAll_cons_iff]
  constructor
  · rintro (⟨hrun, -⟩ | ⟨u, m, v, hrun, hrest, rfl⟩)
    · exact hrun
    · obtain ⟨rfl, rfl⟩ := runAll_nil_iff.mp hrest
      exact (List.append_nil u).symm ▸ hrun
  · intro h
    cases o with
    | goesOn m => exact .inr ⟨w, m, [], h, .nil, (List.append_nil w).symm⟩
    | returns m => exact .inl ⟨h, trivial⟩
    | fails => exact .inl ⟨h, trivial⟩

/-! ## Drawn statements -/

/-- Whether the drawing of a statement has the walks of its runs. -/
def Faithful (s : Setting) (t : Tree) : Prop :=
  (Stmt.ofTree s.dialect t).draw.Realizes (Run s t)

/-- Statements one behind the other are drawn faithfully if each of them is. -/
lemma Faithful.forest (h : ∀ t ∈ ts, s.Faithful t) :
    (Stmt.drawAll (ts.map (Stmt.ofTree s.dialect))).Realizes (RunAll s ts) := by
  induction ts with
  | nil => exact Drawing.Realizes.skip.congr fun _ _ _ => runAll_nil_iff.symm
  | cons t ts ih =>
    obtain ⟨ht, hts⟩ := List.forall_mem_cons.mp h
    have hidle : (Stmt.drawAll (ts.map (Stmt.ofTree s.dialect))).Idle := by
      cases ts with
      | nil => exact fun _ => rfl
      | cons t' ts => exact Drawing.idle_whenLive _
    exact (ht.andThen (ih hts) (.inr hidle)).whenLive.congr fun _ _ _ => runAll_cons_iff.symm

/-- A part of a statement is drawn faithfully, also if there is none. -/
lemma Faithful.part {part : Option Tree} (h : ∀ t ∈ part, s.Faithful t) :
    (part.elim Stmt.skip (Stmt.ofTree s.dialect)).draw.Realizes (RunAll s part.toList) := by
  cases part with
  | none => exact Drawing.Realizes.skip.congr fun _ _ _ => runAll_nil_iff.symm
  | some t => exact (h t rfl).congr fun _ _ _ => runAll_singleton_iff.symm

/-- The nodes that control passes where it runs, apart from choices. -/
inductive Emits : Setting → Mark → Prop where
  | action (t : Tree) : Emits .contract ⟨.action, t.caption⟩
  | leave (t : Option Tree) : Emits .contract ⟨.action, Tree.captioned "return" t⟩
  | step {names : Names} (call : Tree) : Emits (.scenario names) ⟨.action, call.stepLabel names⟩
  | untraced {s : Setting} {t : Tree} : t.kind ∈ Tree.untracedKinds →
    Emits s ⟨.unsupported, t.unsupportedLabel⟩
  | other {names : Names} (t : Tree) :
    Emits (.scenario names) ⟨.unsupported, t.unsupportedLabel⟩
  /-- A function that cannot be read is shown by a node of its own. -/
  | unreadable {s : Setting} {label : String} :
    label ∈ ["unsupported: transition is not function-like", "unsupported: flow body"] →
    Emits s ⟨.unsupported, label⟩

/-- What is passed is an action or unsupported. -/
lemma Emits.kind_eq {m : Mark} (h : Emits s m) : m.kind = .action ∨ m.kind = .unsupported := by
  cases h <;> simp

/-- What is passed is no error. -/
lemma Emits.ne_error {m : Mark} (h : Emits s m) : m.kind ≠ .error := by
  rcases h.kind_eq with h | h <;> simp [h]

/-- The steps in an expression are passed. -/
lemma emits_steps (names : Names) (e : Option Tree) :
    ∀ m ∈ Dialect.steps names e, Emits (.scenario names) m := by
  intro m hm
  cases e with
  | none => cases hm
  | some e =>
    obtain ⟨label, hlabel, rfl⟩ := List.mem_map.mp hm
    rw [Tree.stepLabels_eq_map] at hlabel
    obtain ⟨call, -, rfl⟩ := List.mem_map.mp hlabel
    exact .step call

/-- The nodes of a statement that returns are passed. -/
lemma emits_leaving (s : Setting) (t : Tree) : ∀ m ∈ s.dialect.leaving t, Emits s m := by
  cases s with
  | contract =>
    intro m hm
    obtain rfl := List.mem_singleton.mp hm
    exact .leave t.firstCode?
  | scenario names => exact emits_steps names t.firstCode?

/-- The nodes of a plain statement are passed. -/
lemma emits_plainMarks (s : Setting) (t : Tree) : ∀ m ∈ s.plainMarks t, Emits s m := by
  intro m hm
  cases s with
  | contract =>
    obtain rfl : m = ⟨.action, t.caption⟩ := by
      simpa [plainMarks, dialect, Dialect.contract] using hm
    exact .action t
  | scenario names =>
    by_cases hdeclaration : t.kind ∈ Tree.declarationKinds
    · rw [plainMarks_declaration hdeclaration] at hm
      cases hm
    · by_cases hexpression : t.kind = "expression_statement"
      · rw [plainMarks_expression hexpression] at hm
        exact emits_steps names t.firstCode? m hm
      · rw [plainMarks_other hdeclaration hexpression] at hm
        obtain rfl := List.mem_singleton.mp hm
        exact .other t

/-- **A drawn statement has exactly the walks of its runs**, for every syntax tree.

**Proof sketch.** Induction on the size of the tree. Each form of statements is drawn by the
operation that realizes what the form does, and the trees in it are smaller. -/
theorem realizes_run (s : Setting) (t : Tree) :
    (Stmt.ofTree s.dialect t).draw.Realizes (Run s t) := by
  have hpart : ∀ part : Option Tree, (∀ c ∈ part, sizeOf c < sizeOf t) →
      (part.elim Stmt.skip (Stmt.ofTree s.dialect)).draw.Realizes (RunAll s part.toList) :=
    fun part hpart => Faithful.part fun c hc =>
      have := hpart c hc
      realizes_run s c
  have hbody : (Stmt.drawAll (t.codeChildren.map (Stmt.ofTree s.dialect))).Realizes
      (RunAll s t.codeChildren) :=
    Faithful.forest fun c hc =>
      have := Tree.sizeOf_lt_of_mem_codeChildren hc
      realizes_run s c
  have hfield := fun field => hpart (t.child? field) fun _ => Tree.sizeOf_lt_of_mem_child?
  have halternative := hpart t.alternative? fun _ => Tree.sizeOf_lt_of_mem_alternative?
  suffices hbehavior : (Stmt.ofTree s.dialect t).draw.Realizes (s.behavior t) from
    hbehavior.congr fun _ _ _ => run_iff.symm
  rw [Stmt.ofTree_eq, behavior]
  cases t.form with
  | block => exact hbody
  | branch => exact (hfield "consequence").branch halternative t.branchLabel
  | loop form => exact (hfield "body").loop (t.loopLabel form)
  | leave => exact (Drawing.Realizes.chain fun m hm => (s.emits_leaving t m hm).ne_error).leaving
  | fail => exact Drawing.Realizes.stop rfl
  | unsupported =>
    exact Drawing.Realizes.chain (by simp [Dialect.unsupported])
  | blank => exact Drawing.Realizes.skip
  | plain => exact Drawing.Realizes.chain fun m hm => (s.emits_plainMarks t m hm).ne_error
termination_by sizeOf t

/-- **Drawn statements have exactly the walks of their runs** one behind the other. -/
theorem realizes_runAll (s : Setting) (ts : List Tree) :
    (Stmt.drawAll (ts.map (Stmt.ofTree s.dialect))).Realizes (RunAll s ts) :=
  Faithful.forest fun t _ => s.realizes_run t

/-! ## Drawn functions -/

/-- The drawing of the statements of a block has the walks of the runs of the block. -/
lemma realizes_body {body : Tree} (h : body.kind = "statement_block") :
    (Stmt.drawAll (Stmt.ofForest s.dialect body.children)).Realizes (Run s body) := by
  rw [Stmt.ofForest_eq]
  refine (s.realizes_runAll body.codeChildren).congr fun l w o => ?_
  rw [run_iff, behavior, (Tree.form_eq_iff .block).mpr h]

/-- Control goes on behind a settled function body wherever it gets behind the body. -/
lemma settle_goesOn_iff {body : Tree} {label m : Option String} :
    Behavior.settle label (Run s body) none w (.goesOn m) ↔ s.Leaves body label w m := by
  constructor
  · rintro (⟨o, hrun, ho⟩ | ⟨hfails, rfl, hm⟩)
    · cases o with
      | goesOn n => exact .inl (Completion.goesOn.inj ho ▸ hrun)
      | returns n => exact .inr (.inl (Completion.goesOn.inj ho ▸ hrun))
      | fails => cases ho
    · exact .inr (.inr ⟨hfails, rfl, Completion.goesOn.inj hm⟩)
  · rintro (hrun | hrun | ⟨hfails, rfl, rfl⟩)
    · exact .inl ⟨_, hrun, rfl⟩
    · exact .inl ⟨_, hrun, rfl⟩
    · exact .inr ⟨hfails, rfl, rfl⟩

/-- A settled function body fails wherever the body does. -/
lemma settle_fails_iff {body : Tree} {label : Option String} :
    Behavior.settle label (Run s body) none w .fails ↔ Run s body none w .fails := by
  constructor
  · rintro (⟨o, hrun, ho⟩ | ⟨-, -, ho⟩)
    · cases o with
      | goesOn n => cases ho
      | returns n => cases ho
      | fails => exact hrun
    · cases ho
  · exact fun h => .inl ⟨_, h, rfl⟩

end Setting

end Flowchart
