import Flowchart.Proofs.Flow.Construction
import Flowchart.Proofs.Text.Layout

set_option relaxedAutoImplicit false
set_option autoImplicit false

/-!
# Labels of charts

Where the labels in a chart come from. The labels of edges are words of the chart and captions, so
they are in normal form. The labels of nodes are evenly spaced, unless they quote a text of the
script as it stands: the tag of a failure, the name of a step, or the kind of a statement that the
chart does not follow.

## Main definitions

* `Flowchart.Owner.Quotes`: the nodes that quote a text of the script.
* `Flowchart.Drawing.Tidy`: parts all of whose edges have labels in normal form.

## Main results

* `Flowchart.Owner.even_or_quotes`: all other nodes have evenly spaced labels.
* `Flowchart.Owner.normal_edges`: edges have labels in normal form.
-/

namespace Flowchart

/-! ## Labels of nodes -/

namespace Owner

/-- The nodes whose labels quote a text of the script as it stands. -/
inductive Quotes : Owner → Mark → Prop where
  /-- An error quotes the tag of the failure. -/
  | tag {root object guard : Tree} {tag : String} :
    guard ∈ Tree.elements (object.arrayProperty? "pre") → tag ∈ root.guardTags guard →
    Quotes (contract root object) ⟨.error, "error: " ++ tag⟩
  /-- A step quotes the name of its contract, or its variable if that stands for no contract. -/
  | step {names : Names} {function : Tree} (v : String) :
    Quotes (scenario names function) ⟨.action, "step " ++ (names.contract? v).getD v⟩
  /-- A statement that a scenario does not follow is named by its kind. -/
  | kind {names : Names} {function : Tree} (t : Tree) :
    Quotes (scenario names function) ⟨.unsupported, "unsupported: " ++ t.kind⟩

end Owner

section Nodes

open Text

/-- The labels of statements whose control flow is not followed are evenly spaced. -/
lemma Tree.even_unsupportedLabel {t : Tree} (h : t.kind ∈ untracedKinds) :
    EvenlySpaced t.unsupportedLabel := by
  unfold unsupportedLabel
  simp only [untracedKinds, List.mem_cons, List.not_mem_nil, or_false] at h
  rcases h with h | h | h | h <;> rw [h] <;> decide

/-- **The labels of statements** are evenly spaced, or they quote a text of the script. -/
lemma Setting.Emits.even_or_quotes {s : Setting} {m : Mark} (h : s.Emits m) :
    EvenlySpaced m.label ∨ ∃ names, s = .scenario names ∧
      ∀ function, (Owner.scenario names function).Quotes m := by
  cases h with
  | action t => exact .inl (t.normal_caption).spaced
  | leave t => exact .inl (Tree.even_captioned (by decide) t)
  | @step names call =>
    have hword : EvenlySpaced "step " := by decide
    unfold Tree.stepLabel
    split
    · exact .inl (by decide : EvenlySpaced "step <unknown>")
    · next a _ =>
      split
      · next v _ => exact .inr ⟨names, rfl, fun _ => .step v⟩
      · exact .inl (Tree.even_append_caption hword a)
  | untraced h => exact .inl (Tree.even_unsupportedLabel h)
  | @other names t => exact .inr ⟨names, rfl, fun _ => .kind t⟩
  | unreadable h =>
    simp only [List.mem_cons, List.not_mem_nil, or_false] at h
    rcases h with rfl | rfl
    · exact .inl (by decide : EvenlySpaced "unsupported: transition is not function-like")
    · exact .inl (by decide : EvenlySpaced "unsupported: flow body")

/-- The labels of choices, of loops and of failing statements are evenly spaced. -/
lemma Tree.even_labels (t : Tree) :
    EvenlySpaced t.branchLabel ∧ (∀ form, EvenlySpaced (t.loopLabel form)) ∧
      EvenlySpaced t.failLabel := by
  refine ⟨even_captioned (by decide) _, fun form => ?_, even_captioned (by decide) _⟩
  cases form with
  | counting => exact (by decide : EvenlySpaced "for (...)")
  | traversing =>
    unfold loopLabel
    split_ifs <;> exact even_captioned (by decide) _
  | testFirst => exact even_captioned (by decide) _
  | testLast => exact even_captioned (by decide) _

/-- What is drawn of statements has evenly spaced labels, apart from those it may have where it
stands. -/
lemma Drawing.hereditary_even {s : Setting} {p : Mark → Prop}
    (heven : ∀ m, EvenlySpaced m.label → p m) (hmark : ∀ m, s.Emits m → p m) :
    Hereditary s (Draws p) :=
  hereditary_draws hmark (fun t => heven _ t.even_labels.2.2) (fun t => heven _ t.even_labels.1)
    fun t form => heven _ (t.even_labels.2.1 form)

/-- The labels of the errors of a precondition are evenly spaced, or they quote its tags. -/
lemma even_errorLabels {place : ℕ} {tags : List String} {label : String}
    (h : label ∈ errorLabels place tags) :
    EvenlySpaced label ∨ ∃ tag ∈ tags, label = "error: " ++ tag := by
  unfold errorLabels at h
  split_ifs at h
  · have hword : Solid "error(pre." := by decide
    have hbracket : Solid ")" := by decide
    obtain rfl := List.mem_singleton.mp h
    exact .inl ((hword.append (solid_toString place)).append hbracket).even
  · obtain ⟨tag, htag, rfl⟩ := List.mem_map.mp h
    exact .inr ⟨tag, htag, rfl⟩

/-- The checks of a contract have evenly spaced labels. -/
lemma Contract.even_of_mem_checkMarks {c : Contract} {m : Mark} (hm : m ∈ c.checkMarks) :
    EvenlySpaced m.label := by
  have hpost : Solid "post." := by decide
  have hinvariant : Solid "invariant." := by decide
  rcases List.mem_append.mp hm with hm | hm <;> obtain ⟨i, -, rfl⟩ := List.mem_map.mp hm
  · exact (hpost.append (solid_toString (i + 1))).even
  · exact (hinvariant.append (solid_toString (i + 1))).even

namespace Owner

/-- What is drawn of an owner has evenly spaced labels, or it quotes a text of the script. -/
lemma draws_part (o : Owner) :
    Drawing.Draws (fun m => EvenlySpaced m.label ∨ o.Quotes m) o.part := by
  cases o with
  | contract root object =>
    have hbody : Drawing.Hereditary .contract
        (Drawing.Draws fun m => EvenlySpaced m.label ∨ (contract root object).Quotes m) := by
      refine Drawing.hereditary_even (fun m => .inl) fun m hm => .inl ?_
      refine hm.even_or_quotes.resolve_right ?_
      rintro ⟨names, hnames, -⟩
      cases hnames
    have hword : Solid "pre." := by decide
    rw [part, Contract.contract_eq_drawFrom]
    refine Contract.drawFrom_of_serial _ Drawing.serial_draws (fun tags htags place => ?_)
      (.mark (.inl (by decide))) (fun m hm => .mark (.inl (Contract.even_of_mem_checkMarks hm)))
      ((Contract.draws_transition root object hbody).settle _) 1
    obtain ⟨guard, hguard, rfl⟩ := List.mem_map.mp htags
    refine .guard (.inl ?_) fun m hm => ?_
    · exact (hword.append (solid_toString place)).even
    · obtain ⟨label, hlabel, rfl⟩ := List.mem_map.mp hm
      rcases even_errorLabels hlabel with heven | ⟨tag, htag, rfl⟩
      · exact .inl heven
      · exact .inr (.tag hguard htag)
  | scenario names function =>
    rw [part, Scenario.drawing_eq]
    refine (Scenario.hereditary_body (Drawing.hereditary_even (fun m => .inl) fun m hm => ?_)
      function).settle none
    refine hm.even_or_quotes.imp_right ?_
    rintro ⟨names', hnames, hquotes⟩
    obtain rfl := Setting.scenario.inj hnames
    exact hquotes function

/-- **The labels of the nodes in a chart** are evenly spaced, unless the nodes quote a text of the
script. -/
lemma even_or_quotes {o : Owner} {g : Graph} (hg : o.draft.freeze = .ok g) {n : Graph.Node}
    (hn : n ∈ g.nodes) : EvenlySpaced n.label ∨ o.Quotes ⟨n.kind, n.label⟩ := by
  have hfinish : EvenlySpaced o.finish := by
    cases o with
    | contract root object => exact (by decide : EvenlySpaced "ok")
    | scenario names function => exact (by decide : EvenlySpaced "end")
  obtain ⟨rest, hnodes, hrest⟩ := Drawing.exists_nodes_chart o.draws_part (o.draft_eq ▸ hg)
  rw [hnodes, List.mem_cons, List.mem_cons] at hn
  rcases hn with rfl | rfl | hn
  · exact .inl (by decide : EvenlySpaced "start")
  · exact .inl hfinish
  · exact hrest n hn

end Owner

end Nodes

/-! ## Labels of edges -/

/-- The label of an edge that has none, or one in normal form. -/
def NormalLabel (label : Option String) : Prop :=
  ∀ text ∈ label, Text.Normal text.toList

/-- A fragment all of whose edges and open ends have labels in normal form. -/
structure Fragment.Tidy (f : Fragment) : Prop where
  edges : ∀ e ∈ f.edges, NormalLabel e.label
  continues : ∀ x ∈ f.continues, NormalLabel x.label
  returns : ∀ x ∈ f.returns, NormalLabel x.label

/-- A part that labels edges in normal form if control enters it by such edges. -/
def Drawing.Tidy (part : Drawing) : Prop :=
  ∀ size entries, (∀ x ∈ entries, NormalLabel x.label) → (part size entries).Tidy

section Edges

open Text

variable {entries : List Entry} {id : String}

/-- An absent label is in normal form. -/
lemma normalLabel_none : NormalLabel none := by
  intro text htext
  cases htext

/-- A label without blanks is in normal form. -/
lemma Text.Solid.normalLabel {label : String} (h : Solid label) : NormalLabel (some label) := by
  intro text htext
  obtain rfl := Option.some.inj htext
  exact ⟨h.even, fun c hc => h c (List.mem_of_mem_head? hc),
    fun c hc => h c (List.mem_of_mem_getLast? hc)⟩

/-- A single open end with a label without blanks. -/
lemma Text.Solid.normalLabel_singleton {label : String} (h : Solid label) :
    ∀ x ∈ [(⟨id, some label⟩ : Entry)], NormalLabel x.label := by
  intro x hx
  obtain rfl := List.mem_singleton.mp hx
  exact h.normalLabel

/-- Edges from open ends have the labels of these. -/
lemma normalLabel_link (h : ∀ x ∈ entries, NormalLabel x.label) :
    ∀ e ∈ link entries id, NormalLabel e.label := by
  intro e he
  obtain ⟨x, hx, rfl⟩ := List.mem_map.mp he
  exact h x hx

/-- Edges back to a loop have the labels of the open ends, or a word of their own. -/
lemma normalLabel_backEdges (h : ∀ x ∈ entries, NormalLabel x.label) :
    ∀ e ∈ Drawing.backEdges entries id, NormalLabel e.label := by
  have hnext : Solid "next" := by decide
  intro e he
  obtain ⟨⟨v, l⟩, hx, rfl⟩ := List.mem_map.mp he
  cases l with
  | none => exact hnext.normalLabel
  | some label => exact h _ hx

namespace Drawing

/-- Parts in a row label edges in normal form if each of them does. -/
lemma serial_tidy : Serial Tidy where
  skip := fun _ _ hentries =>
    ⟨fun _ he => absurd he List.not_mem_nil, hentries, fun _ hx => absurd hx List.not_mem_nil⟩
  andThen := by
    intro first second hfirst hsecond size entries hentries
    have hf := hfirst size entries hentries
    have hg := hsecond (size + (first size entries).marks.length) _ hf.continues
    exact ⟨List.forall_mem_append.mpr ⟨hf.edges, hg.edges⟩, hg.continues,
      List.forall_mem_append.mpr ⟨hf.returns, hg.returns⟩⟩

/-- A node labels no edges of its own. -/
lemma tidy_mark (m : Mark) : Tidy (mark m) := by
  intro size entries hentries
  refine ⟨normalLabel_link hentries, fun x hx => ?_, fun _ hx => absurd hx List.not_mem_nil⟩
  obtain rfl := List.mem_singleton.mp hx
  exact normalLabel_none

/-- A settled part labels edges in normal form. -/
lemma Tidy.settle {part : Drawing} {label : Option String} (h : part.Tidy)
    (hlabel : NormalLabel label) : Tidy (.settle label part) := by
  intro size entries hentries
  have hf := h size entries hentries
  refine ⟨hf.edges, fun x hx => ?_, fun _ hx => absurd hx List.not_mem_nil⟩
  simp only [Drawing.settle] at hx
  split_ifs at hx
  · obtain ⟨y, -, rfl⟩ := List.mem_map.mp hx
    exact hlabel
  · exact (List.mem_append.mp hx).elim (hf.continues x) (hf.returns x)

/-- A part that returns a value labels its edges by the caption of the value. -/
lemma tidy_returning {label : String} (h : Normal label.toList) : Tidy (.returning label) := by
  intro size entries _
  refine ⟨fun _ he => absurd he List.not_mem_nil, fun _ hx => absurd hx List.not_mem_nil,
    fun x hx => ?_⟩
  obtain ⟨y, -, rfl⟩ := List.mem_map.mp hx
  rintro text ⟨⟩
  exact h

/-- A precondition labels its edges by words of its own. -/
lemma tidy_guard (place : ℕ) (tags : List String) : Tidy (.guard place tags) := by
  have hfail : Solid "fail" := by decide
  have hpass : Solid "pass" := by decide
  intro size entries hentries
  rw [guard_eq]
  refine ⟨List.forall_mem_append.mpr ⟨normalLabel_link hentries, fun e he => ?_⟩,
    hpass.normalLabel_singleton, fun _ hx => absurd hx List.not_mem_nil⟩
  obtain ⟨i, -, rfl⟩ := List.mem_map.mp he
  exact hfail.normalLabel

/-- **What is drawn of statements** labels edges in normal form. -/
lemma hereditary_tidy {s : Setting} : Hereditary s Tidy where
  skip := serial_tidy.skip
  mark _ := tidy_mark _
  stop t := fun _ _ hentries => ⟨normalLabel_link hentries,
    fun _ hx => absurd hx List.not_mem_nil, fun _ hx => absurd hx List.not_mem_nil⟩
  andThen hfirst hsecond _ := serial_tidy.andThen hfirst hsecond
  whenLive hpart := by
    intro size entries hentries
    unfold whenLive
    split_ifs
    · exact serial_tidy.skip size entries hentries
    · exact hpart size entries hentries
  leaving hpart := by
    intro size entries hentries
    have hf := hpart size entries hentries
    exact ⟨hf.edges, fun _ hx => absurd hx List.not_mem_nil,
      List.forall_mem_append.mpr ⟨hf.continues, hf.returns⟩⟩
  branch t htrue hfalse := by
    have hyes : Solid "true" := by decide
    have hno : Solid "false" := by decide
    intro size entries hentries
    have hf := htrue (size + 1) [⟨nodeId (size + 1), some "true"⟩] hyes.normalLabel_singleton
    have hg := fun place =>
      hfalse place [⟨nodeId (size + 1), some "false"⟩] hno.normalLabel_singleton
    exact ⟨List.forall_mem_append.mpr
        ⟨List.forall_mem_append.mpr ⟨normalLabel_link hentries, hf.edges⟩, (hg _).edges⟩,
      List.forall_mem_append.mpr ⟨hf.continues, (hg _).continues⟩,
      List.forall_mem_append.mpr ⟨hf.returns, (hg _).returns⟩⟩
  loop t form hbody := by
    have hiterate : Solid "iterate" := by decide
    have hdone : Solid "done" := by decide
    intro size entries hentries
    have hf := hbody (size + 1) [⟨nodeId (size + 1), some "iterate"⟩]
      hiterate.normalLabel_singleton
    exact ⟨List.forall_mem_append.mpr ⟨List.forall_mem_append.mpr
        ⟨normalLabel_link hentries, hf.edges⟩, normalLabel_backEdges hf.continues⟩,
      hdone.normalLabel_singleton, hf.returns⟩

end Drawing

namespace Contract

/-- A contract labels edges in normal form. -/
lemma tidy_contract (root object : Tree) : (Drawing.contract (ofObject root object)).Tidy := by
  have hsuccess : Solid "success" := by decide
  have htransition : (Drawing.transition (ofObject root object).transition).Tidy := by
    rcases transition_cases root object with ⟨body, hvalue⟩ | hall
    · rw [hvalue]
      exact Drawing.tidy_returning body.normal_caption
    · exact hall Drawing.hereditary_tidy
  rw [contract_eq_drawFrom]
  exact drawFrom_of_serial _ Drawing.serial_tidy (fun tags _ place => Drawing.tidy_guard place tags)
    (Drawing.tidy_mark _) (fun m _ => Drawing.tidy_mark m)
    (htransition.settle hsuccess.normalLabel) 1

end Contract

namespace Owner

/-- What is drawn of an owner labels edges in normal form. -/
lemma tidy_part (o : Owner) : o.part.Tidy := by
  cases o with
  | contract root object => exact Contract.tidy_contract root object
  | scenario names function =>
    rw [part, Scenario.drawing_eq]
    exact (Scenario.hereditary_body Drawing.hereditary_tidy function).settle normalLabel_none

/-- **The labels of edges in a chart** are in normal form. -/
lemma normal_edges {o : Owner} {g : Graph} (hg : o.draft.freeze = .ok g) :
    ∀ e ∈ g.edges, NormalLabel e.label := by
  have hbeginning : ∀ x ∈ Drawing.beginning, NormalLabel x.label := by
    intro x hx
    obtain rfl := List.mem_singleton.mp hx
    exact normalLabel_none
  have hpart := o.tidy_part 2 _ hbeginning
  intro e he
  have hmem := (Draft.freeze_eq_ok hg).2.1.subset he
  rw [o.draft_eq, Drawing.edges_chart] at hmem
  exact (List.mem_append.mp hmem).elim (hpart.edges e) (normalLabel_link hpart.continues e)

end Owner

end Edges

end Flowchart
