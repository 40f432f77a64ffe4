import Flowchart.Proofs.Document.Formation
import Flowchart.Proofs.Flow.Correspondence
import Flowchart.Proofs.Flow.Live
import Mathlib.Data.List.Nodup

set_option relaxedAutoImplicit false
set_option autoImplicit false

/-!
# Variables of contracts

Which contract a variable stands for in the scenarios of a script. Every contract is bound to the
variable of the nearest declarator around it, so a declarator may bind its variable to several
contracts: the one that is its value, and others that are defined inside of it. The last of them
counts.

## Main definitions

* `Flowchart.Tree.contractName?`: the name of the contract that a call defines.
* `Flowchart.Tree.boundName?`: the variable that a declarator binds.
* `Flowchart.Tree.ownContracts`: the contracts that are bound to the variable of a declarator.
* `Flowchart.Scenario.calls`: the calls of `step` that a scenario shows.

## Main results

* `Flowchart.Tree.contract?_of_declarator`: a variable stands for the last contract that its
  declarator binds it to, and the steps of all scenarios are named accordingly.
-/

namespace Flowchart

namespace Tree

/-! ## Contracts of declarators -/

/-- The name of the contract that a tree defines, if it is a call of `define` in one of the two
forms of a definition with an object literal as its body. -/
def contractName? (t : Tree) : Option String :=
  if t.kind = "call_expression" ∧ t.callee? = some "define" then
    t.definition?.bind fun (name, body) => (contractBody? body).map fun _ => name
  else none

/-- The variable that a tree binds, if it is a declarator of a plain identifier. -/
def boundName? (t : Tree) : Option String :=
  if t.kind = "variable_declarator" then (t.child? "name").bind identifier? else none

mutual

/-- The names of the contracts in a tree, outside of the declarators in it. -/
def freeContracts : Tree → List String
  | t@(.node h cs) =>
    if h.kind = "variable_declarator" then []
    else t.contractName?.toList ++ forestContracts cs

/-- The names of the contracts in the named trees among siblings, outside of declarators. -/
def forestContracts : List Tree → List String
  | [] => []
  | c :: cs => (if c.named then c.freeContracts else []) ++ forestContracts cs

end

/-- The names of the contracts that are bound to the variable of a declarator, in their order: those
inside of it that are in no other declarator inside of it. -/
def ownContracts (declarator : Tree) : List String :=
  forestContracts declarator.children

/-! ## Bindings -/

/-- The variable of the nearest declarator among the trees around a place. -/
def nearestName? (around : List Tree) : Option String :=
  (around.find? fun t => t.kind == "variable_declarator").bind fun declarator =>
    (declarator.child? "name").bind identifier?

/-- The names of the contracts at some places that are bound to a variable. -/
def contractsFor (v : String) (places : List Place) : List String :=
  places.filterMap fun p => if p.binding? = some v then p.tree.contractName? else none

/-- Inside of a declarator its variable is the nearest. -/
lemma nearestName?_cons (t : Tree) (around : List Tree) :
    nearestName? (t :: around) =
      if t.kind = "variable_declarator" then t.boundName? else nearestName? around := by
  unfold nearestName? boundName?
  by_cases h : t.kind = "variable_declarator" <;> simp [h]

/-- The contracts at a place come before those at the places behind it. -/
lemma contractsFor_cons (v : String) (t : Tree) (around : List Tree) (places : List Place) :
    contractsFor v (⟨t, around⟩ :: places) =
      (if nearestName? around = some v then t.contractName?.toList else []) ++
        contractsFor v places := by
  have hbinding : (⟨t, around⟩ : Place).binding? = nearestName? around := rfl
  rw [contractsFor, List.filterMap_cons, hbinding]
  split_ifs with hnearest
  · cases t.contractName? <;> rfl
  · rfl

/-- The contracts at places in a row are those of its parts. -/
lemma contractsFor_append (v : String) (places places' : List Place) :
    contractsFor v (places ++ places') = contractsFor v places ++ contractsFor v places' :=
  List.filterMap_append

/-- A declarator defines no contract itself. -/
lemma contractName?_declarator {t : Tree} (h : t.kind = "variable_declarator") :
    t.contractName? = none := by
  simp [contractName?, h]

end Tree

namespace Names

/-- The contract of a variable is the last one that is bound to it. -/
lemma contract?_eq (names : Names) (v : String) :
    names.contract? v =
      (names.filterMap fun b => if b.1 = v then some b.2 else none).getLast? := by
  rw [contract?, List.getLast?_filterMap, List.find?_eq_findSome?_guard, List.map_findSome?]
  congr 1
  funext b
  by_cases h : b.1 = v <;> simp [Option.guard, h]

/-- The variables of a script are bound to its contracts place by place. -/
lemma contract?_ofSites (root : Tree) (v : String) :
    (ofSites root.contractSites).contract? v = (Tree.contractsFor v root.places).getLast? := by
  rw [contract?_eq, ofSites, Tree.contractSites, Tree.contractSightings, Tree.callsOf,
    Tree.contractsFor]
  congr 1
  simp only [List.filterMap_map, List.filterMap_filterMap, List.filterMap_filter]
  refine List.filterMap_congr fun p _ => ?_
  by_cases hcall : p.tree.kind = "call_expression" ∧ p.tree.callee? = some "define"
  · simp only [Tree.contractName?, if_pos hcall, Function.comp_apply, Tree.sight]
    rw [if_pos (by simpa using hcall)]
    cases p.tree.definition? with
    | none => simp [Sighting.site?]
    | some definition =>
      obtain ⟨name, body⟩ := definition
      cases hbody : body.contractBody? <;> cases p.binding? <;> simp [Sighting.site?, hbody]
  · rw [if_neg (by simpa using hcall), Tree.contractName?, if_neg hcall, ite_self]
    rfl

end Names

namespace Tree

variable {v : String}

mutual

/-- Where no declarator binds a variable, the contracts are bound to it that see it around. -/
lemma contractsFor_of_unbound {t : Tree} (h : ∀ d ∈ t.preorder, d.boundName? ≠ some v)
    (around : List Tree) :
    contractsFor v (placesWithin named around t) =
      if nearestName? around = some v then t.freeContracts else [] := by
  cases t with
  | node head cs =>
    rw [preorder] at h
    obtain ⟨hself, hbelow⟩ := List.forall_mem_cons.mp h
    have hforest := contractsFor_of_unbound_forest hbelow (.node head cs :: around)
    rw [placesWithin, contractsFor_cons, hforest, nearestName?_cons, freeContracts]
    by_cases hkind : head.kind = "variable_declarator"
    · have hnone : (node head cs).contractName? = none := contractName?_declarator hkind
      have hkind' : (node head cs).kind = "variable_declarator" := hkind
      simp [hkind, hkind', hself, hnone]
    · have hkind' : (node head cs).kind ≠ "variable_declarator" := hkind
      by_cases hnearest : nearestName? around = some v <;> simp [hkind, hkind', hnearest]

/-- The same for the trees among siblings. -/
lemma contractsFor_of_unbound_forest {cs : List Tree}
    (h : ∀ d ∈ forestPreorder cs, d.boundName? ≠ some v) (around : List Tree) :
    contractsFor v (forestPlaces named around cs) =
      if nearestName? around = some v then forestContracts cs else [] := by
  cases cs with
  | nil => simp [forestPlaces, contractsFor, forestContracts]
  | cons c cs =>
    rw [forestPreorder, List.forall_mem_append] at h
    have hrest := contractsFor_of_unbound_forest h.2 around
    rw [forestPlaces, contractsFor_append, hrest, forestContracts]
    by_cases hnamed : c.named = true
    · rw [if_pos hnamed] at h
      rw [if_pos hnamed, if_pos hnamed, contractsFor_of_unbound h.1 around]
      split_ifs <;> rfl
    · rw [if_neg hnamed, if_neg hnamed]
      rfl

end

mutual

/-- **Where one declarator binds a variable**, the contracts are bound to it that are the
declarator's own.

**Proof sketch.** By induction on the tree, together with its siblings. The declarator stands in one
of the parts of a tree. No declarator in the other parts binds the variable, so no contract in them
is bound to it, and inside of the declarator those are that see it around them. -/
lemma contractsFor_of_bound {t declarator : Tree}
    (h : (t.preorder.filter fun d => d.boundName? = some v) = [declarator]) {around : List Tree}
    (haround : nearestName? around ≠ some v) :
    contractsFor v (placesWithin named around t) = declarator.ownContracts := by
  cases t with
  | node head cs =>
    rw [preorder, List.filter_cons] at h
    rw [placesWithin, contractsFor_cons, if_neg haround]
    by_cases hbound : (node head cs).boundName? = some v
    · -- the declarator is here, and there is none below it
      rw [if_pos (by simpa using hbound)] at h
      obtain ⟨rfl, hrest⟩ := List.cons.inj h
      have hbelow : ∀ d ∈ forestPreorder cs, d.boundName? ≠ some v := by
        simpa using hrest
      have hkind : (node head cs).kind = "variable_declarator" := by
        by_contra hkind
        simp [boundName?, hkind] at hbound
      rw [contractsFor_of_unbound_forest hbelow, nearestName?_cons, if_pos hkind, if_pos hbound]
      rfl
    · rw [if_neg (by simpa using hbound)] at h
      refine contractsFor_of_bound_forest h ?_
      rw [nearestName?_cons]
      split_ifs
      · exact hbound
      · exact haround

/-- The same for the trees among siblings. -/
lemma contractsFor_of_bound_forest {cs : List Tree} {declarator : Tree}
    (h : ((forestPreorder cs).filter fun d => d.boundName? = some v) = [declarator])
    {around : List Tree} (haround : nearestName? around ≠ some v) :
    contractsFor v (forestPlaces named around cs) = declarator.ownContracts := by
  cases cs with
  | nil => cases h
  | cons c cs =>
    rw [forestPreorder, List.filter_append] at h
    rw [forestPlaces, contractsFor_append]
    rcases List.append_eq_singleton_iff.mp h with ⟨hfirst, hrest⟩ | ⟨hfirst, hrest⟩
    · have hunbound :
          contractsFor v (if c.named then placesWithin named around c else []) = [] := by
        split_ifs at hfirst ⊢
        · rw [contractsFor_of_unbound (by simpa using hfirst), if_neg haround]
        · rfl
      rw [hunbound, contractsFor_of_bound_forest hrest haround, List.nil_append]
    · rw [contractsFor_of_unbound_forest (by simpa using hrest), if_neg haround, List.append_nil]
      split_ifs at hfirst ⊢
      · exact contractsFor_of_bound hfirst haround
      · cases hfirst

end

/-! ## Values of declarators -/

/-- The contracts in a named tree among siblings are among those of the siblings. -/
lemma mem_forestContracts {id : String} {c : Tree} {cs : List Tree} (hc : c ∈ cs)
    (hnamed : c.named = true) (hid : id ∈ c.freeContracts) : id ∈ forestContracts cs := by
  induction cs with
  | nil => cases hc
  | cons c' cs ih =>
    rw [forestContracts, List.mem_append]
    rcases List.mem_cons.mp hc with rfl | hc
    · exact .inl (by rwa [if_pos hnamed])
    · exact .inr (ih hc)

/-- A contract that is the value of a tree is in the tree. -/
lemma mem_freeContracts_of_unwrap {id : String} {t : Tree} (h : t.unwrap.contractName? = some id) :
    id ∈ t.freeContracts := by
  have hkind : t.kind ≠ "variable_declarator" := by
    intro hkind
    have hself : t.wrapped? = none := by rw [wrapped?, hkind]; rfl
    rw [unwrap_eq, hself, Option.map_none, Option.getD_none, contractName?_declarator hkind] at h
    cases h
  have hfree : t.freeContracts = t.contractName?.toList ++ forestContracts t.children := by
    cases t with
    | node head cs => exact if_neg hkind
  rw [unwrap_eq] at h
  rw [hfree, List.mem_append]
  cases hwrapped : t.wrapped? with
  | none =>
    rw [hwrapped] at h
    exact .inl (Option.mem_toList.mpr h)
  | some c =>
    have hcode := mem_codeChildren_of_wrapped? hwrapped
    have hnamed : c.named = true := (Bool.and_eq_true_iff.mp (List.mem_filter.mp hcode).2).1
    have := sizeOf_lt_of_mem_codeChildren hcode
    rw [hwrapped] at h
    exact .inr (mem_forestContracts (List.mem_filter.mp hcode).1 hnamed
      (mem_freeContracts_of_unwrap h))
termination_by sizeOf t

/-- The contract that is the value of a declarator is one of the declarator's own. -/
lemma mem_ownContracts_of_value {id : String} {declarator value : Tree}
    (hvalue : value ∈ declarator.child? "value") (hnamed : value.named = true)
    (h : value.unwrap.contractName? = some id) : id ∈ declarator.ownContracts :=
  mem_forestContracts (List.mem_of_find?_eq_some hvalue) hnamed (mem_freeContracts_of_unwrap h)

/-- **A variable that one declarator binds** stands for the last of the declarator's contracts. -/
lemma contract?_eq_getLast? {root declarator : Tree}
    (hdistinct : (root.preorder.filterMap boundName?).Nodup) (hmem : declarator ∈ root.preorder)
    (hbound : declarator.boundName? = some v) :
    (Names.ofSites root.contractSites).contract? v = declarator.ownContracts.getLast? := by
  have hcount : (root.preorder.filter fun d => d.boundName? = some v).length ≤ 1 := by
    have hle := List.nodup_iff_count_le_one.mp hdistinct v
    rw [List.count, List.countP_filterMap, List.countP_eq_length_filter] at hle
    refine le_of_eq_of_le (congrArg List.length (List.filter_congr fun d _ => ?_)) hle
    cases d.boundName? with
    | none => rfl
    | some w => by_cases hw : w = v <;> simp [hw]
  have hin : declarator ∈ root.preorder.filter fun d => d.boundName? = some v :=
    List.mem_filter.mpr ⟨hmem, by simpa using hbound⟩
  have hone : (root.preorder.filter fun d => d.boundName? = some v) = [declarator] := by
    obtain ⟨d, hd⟩ := List.length_eq_one_iff.mp
      (Nat.le_antisymm hcount (List.length_pos_of_mem hin))
    rw [hd, List.mem_singleton] at hin
    rw [hd, hin]
  rw [Names.contract?_ofSites, places, contractsFor_of_bound hone (by simp [nearestName?])]

end Tree

/-! ## Steps of scenarios -/

/-- The actions for calls of `step`. -/
def Tree.stepActions (names : Names) (calls : List Tree) : List Mark :=
  calls.map fun call => ⟨.action, call.stepLabel names⟩

/-- The actions for calls are all actions. -/
lemma Tree.filter_stepActions (names : Names) (calls : List Tree) :
    (stepActions names calls).filter (fun m => m.kind == .action) = stepActions names calls :=
  List.filter_eq_self.mpr fun m hm => by
    obtain ⟨call, -, rfl⟩ := List.mem_map.mp hm
    rfl

/-- The actions among the nodes of a statement in a scenario are those for its calls. -/
lemma Setting.filter_marks_scenario (names : Names) (t : Tree) :
    ((scenario names).marks t).filter (fun m => m.kind == .action) =
      Tree.stepActions names t.statementCalls := by
  by_cases hkind : t.kind ∈ ["return_statement", "expression_statement"]
  · have hsteps : Dialect.steps names t.firstCode? = Tree.stepActions names t.statementCalls := by
      rw [steps_eq names hkind, List.map_map]
      rfl
    have hmarks : (scenario names).marks t = Dialect.steps names t.firstCode? := by
      rcases List.mem_pair.mp hkind with hreturn | hexpression
      · rw [marks, (Tree.form_eq_iff .leave).mpr hreturn]
        rfl
      · have hform : t.form = .plain :=
          (Tree.form_eq_iff .plain).mpr (by simp [Form.HasKind, hexpression, Tree.controlKinds,
            Tree.blankKinds, Tree.untracedKinds])
        rw [marks, hform]
        exact plainMarks_expression hexpression
    rw [hmarks, hsteps, Tree.filter_stepActions]
  · rw [Tree.statementCalls, if_neg hkind, marks]
    cases hform : t.form with
    | leave => exact absurd (List.mem_pair.mpr (.inl ((Tree.form_eq_iff .leave).mp hform))) hkind
    | plain =>
      by_cases hdeclaration : t.kind ∈ Tree.declarationKinds
      · simp [plainMarks_declaration hdeclaration, Tree.stepActions]
      · have hexpression : t.kind ≠ "expression_statement" := fun h =>
          hkind (List.mem_pair.mpr (.inr h))
        simp [plainMarks_other hdeclaration hexpression, Tree.stepActions, Dialect.unsupported]
    | _ => rfl

namespace Scenario

/-- The calls of `step` that a scenario shows: those in its live statements, or those in the array
that it is. -/
def calls (function : Tree) : List Tree :=
  match function.child? "body" with
  | none => []
  | some body =>
    if body.kind = "statement_block" then body.live.flatMap Tree.statementCalls
    else if body.unwrap.kind = "array" then body.stepCalls
    else []

/-- **The actions of a scenario** are those for its calls of `step`, one after the other. -/
lemma filter_marks_draft (names : Names) (function : Tree) :
    (ofFunction names function).draft.marks.filter (fun m => m.kind == .action) =
      Tree.stepActions names (calls function) := by
  have hdraft : (ofFunction names function).draft.marks =
      [⟨.start, "start"⟩, ⟨.finish, "end"⟩] ++
        ((ofFunction names function).body 2 Drawing.beginning).marks := by
    rw [draft, Drawing.marks_chart, drawing_eq]
    rfl
  rw [hdraft, List.filter_append, List.filter_eq_nil_iff.mpr (by simp), List.nil_append, calls]
  unfold ofFunction
  cases function.child? "body" with
  | none => rfl
  | some tree =>
    simp only
    split_ifs with hblock harray
    · have hmarks := (Setting.scenario names).marks_body hblock 2
        (List.cons_ne_nil (⟨nodeId 1, none⟩ : Entry) [])
      have hparts : ∀ ts : List Tree, (ts.flatMap (Setting.scenario names).marks).filter
          (fun m => m.kind == .action) = Tree.stepActions names (ts.flatMap Tree.statementCalls) :=
        fun ts => by
          rw [List.filter_flatMap, Tree.stepActions, List.map_flatMap]
          exact List.flatMap_congr fun t _ => Setting.filter_marks_scenario names t
      rw [← hparts, ← hmarks]
      rfl
    · have hmarks : ((steps (tree.stepLabels names)).body 2 Drawing.beginning).marks =
          Tree.stepActions names tree.stepCalls := by
        rw [body, Drawing.marks_chain, Tree.stepLabels_eq_map, List.map_map]
        rfl
      rw [hmarks, Tree.filter_stepActions]
    · rfl

/-- The actions in the chart of a scenario. -/
lemma filter_nodes {names : Names} {function : Tree} {g : Graph}
    (hg : (ofFunction names function).draft.freeze = .ok g) :
    (g.nodes.filter fun n => n.kind == .action).map Graph.Node.label =
      (calls function).map (Tree.stepLabel names) := by
  have hactions := congrArg (List.map Mark.label) (filter_marks_draft names function)
  rw [← Draft.map_mark_freeze hg, List.filter_map, List.map_map, Tree.stepActions,
    List.map_map] at hactions
  exact hactions

end Scenario

namespace Tree

/-- **Variables and their contracts.** In a script whose declarators bind distinct variables, a
variable stands for the last contract that its declarator binds it to. A contract that is the value
of the declarator is one of these, so the variable stands for it if no other contract is defined
inside of the declarator. In every scenario of the script the actions are labelled by its calls of
`step`, and a call that names the variable by the contract that the variable stands for. -/
theorem contract?_of_declarator {root declarator : Tree} {v : String}
    (hdistinct : (root.preorder.filterMap boundName?).Nodup) (hmem : declarator ∈ root.preorder)
    (hbound : declarator.boundName? = some v) :
    (Names.ofSites root.contractSites).contract? v = declarator.ownContracts.getLast? ∧
      (∀ value id, value ∈ declarator.child? "value" → value.named = true →
        value.unwrap.contractName? = some id → id ∈ declarator.ownContracts ∧
          ((∀ other ∈ declarator.ownContracts, other = id) →
            (Names.ofSites root.contractSites).contract? v = some id)) ∧
      ∀ name names function, (name, Owner.scenario names function) ∈ root.owners →
        ∃ a, (Owner.scenario names function).artifact name = .ok a ∧
          (a.graph.nodes.filter fun n => n.kind == .action).map Graph.Node.label =
            (Scenario.calls function).map (stepLabel names) ∧
          ∀ call ∈ Scenario.calls function, call.stepVariable? = some v →
            call.stepLabel names = "step " ++ declarator.ownContracts.getLast?.getD v := by
  have hlast := contract?_eq_getLast? hdistinct hmem hbound
  refine ⟨hlast, fun value id hvalue hnamed hname => ?_, fun name names function howner => ?_⟩
  · have hin := mem_ownContracts_of_value hvalue hnamed hname
    refine ⟨hin, fun hall => ?_⟩
    rw [hlast, List.getLast?_eq_some_getLast (List.ne_nil_of_mem hin),
      hall _ (List.getLast_mem _)]
  · have hnames : names = Names.ofSites root.contractSites := by
      rcases List.mem_append.mp howner with hcontract | hscenario
      · obtain ⟨site, -, hsite⟩ := List.mem_map.mp hcontract
        cases hsite
      · obtain ⟨site, -, hsite⟩ := List.mem_flatMap.mp hscenario
        obtain ⟨f, -, hf⟩ := List.mem_map.mp hsite
        cases hf
        rfl
    obtain ⟨a, ha⟩ := (Owner.scenario names function).exists_artifact name
    obtain ⟨g, hg, rfl⟩ := Owner.exists_of_artifact ha
    refine ⟨_, ha, Scenario.filter_nodes hg, fun call _ hvariable => ?_⟩
    rw [stepLabel_eq, hvariable, hnames, ← hlast]

/-! ## An example -/

/-- A call of a function by its name. -/
def plainCall (row : ℕ) (field : Option String) (function : String) (arguments : List Tree) :
    Tree :=
  .node ⟨row, "call_expression", true, field, 1, function ++ "(...)"⟩ [
    .node ⟨row + 1, "identifier", true, some "function", 1, function⟩ [],
    .node ⟨row + 2, "arguments", true, some "arguments", 1, "(...)"⟩ arguments]

/-- A string literal. -/
def plainString (row : ℕ) (text : String) : Tree :=
  .node ⟨row, "string", true, none, 1, "\"" ++ text ++ "\""⟩ [
    .node ⟨row + 1, "string_fragment", true, none, 1, text⟩ []]

/-- The value `define("outer", { part: define("inner", {}) })`. -/
def nestedContract : Tree :=
  plainCall 4 (some "value") "define" [
    plainString 7 "outer",
    .node ⟨9, "object", true, none, 1, "\x7b part: ... \x7d"⟩ [
      .node ⟨10, "pair", true, none, 1, "part: ..."⟩ [
        .node ⟨11, "property_identifier", true, some "key", 1, "part"⟩ [],
        plainCall 12 (some "value") "define" [
          plainString 15 "inner",
          .node ⟨17, "object", true, none, 1, "\x7b\x7d"⟩ []]]]]

/-- The declarator `whole = define("outer", { part: define("inner", {}) })`. -/
def nestedDeclarator : Tree :=
  .node ⟨2, "variable_declarator", true, none, 1, "whole = ..."⟩ [
    .node ⟨3, "identifier", true, some "name", 1, "whole"⟩ [],
    nestedContract]

/-- The steps `[step(whole)]`. -/
def nestedSteps : Tree :=
  .node ⟨26, "array", true, some "body", 2, "[step(whole)]"⟩ [
    plainCall 27 none "step" [
      .node ⟨30, "identifier", true, none, 2, "whole"⟩ []]]

/-- The flow `() => [step(whole)]`. -/
def nestedFlow : Tree :=
  .node ⟨24, "arrow_function", true, none, 2, "() => [step(whole)]"⟩ [
    .node ⟨25, "formal_parameters", true, none, 2, "()"⟩ [],
    nestedSteps]

/-- The script of this declarator and of a scenario with this flow. -/
def nestedScript : Tree :=
  .node ⟨0, "program", true, none, 1, "..."⟩ [
    .node ⟨1, "lexical_declaration", true, none, 1, "const whole = ...;"⟩ [nestedDeclarator],
    .node ⟨18, "expression_statement", true, none, 2, "scenario(...);"⟩ [
      plainCall 19 none "scenario" [plainString 22 "use", nestedFlow]]]

/-- The declarator stands in the script. -/
lemma mem_nestedScript : nestedDeclarator ∈ nestedScript.preorder :=
  List.mem_of_getElem? (show nestedScript.preorder[2]? = some nestedDeclarator from rfl)

/-- The script binds one variable. -/
lemma distinct_nestedScript : (nestedScript.preorder.filterMap boundName?).Nodup := by
  have hnames : nestedScript.preorder.filterMap boundName? = ["whole"] := rfl
  rw [hnames]
  exact List.nodup_singleton _

/-- **A contract inside of another one takes its variable.** The last contract of the declarator is
the inner one. -/
theorem contract?_of_nested :
    (nestedScript.preorder.filterMap boundName?).Nodup ∧ nestedDeclarator ∈ nestedScript.preorder ∧
      nestedDeclarator.boundName? = some "whole" ∧
      (Names.ofSites nestedScript.contractSites).contract? "whole" = some "inner" := by
  have hown : nestedDeclarator.ownContracts = ["outer", "inner"] := rfl
  refine ⟨distinct_nestedScript, mem_nestedScript, rfl, ?_⟩
  rw [(contract?_of_declarator (v := "whole") distinct_nestedScript mem_nestedScript rfl).1, hown]
  rfl

/-- **A variable need not stand for the contract that is its value**: here it does not, and the step
of the scenario is labelled by the inner contract. -/
theorem contract?_ne_value :
    (nestedScript.preorder.filterMap boundName?).Nodup ∧ nestedDeclarator ∈ nestedScript.preorder ∧
      nestedDeclarator.boundName? = some "whole" ∧
      nestedDeclarator.child? "value" = some nestedContract ∧
      nestedContract.unwrap.contractName? = some "outer" ∧
      (Names.ofSites nestedScript.contractSites).contract? "whole" ≠ some "outer" ∧
      (Scenario.calls nestedFlow).map (stepLabel (Names.ofSites nestedScript.contractSites)) =
        ["step inner"] := by
  have hsites : Names.ofSites nestedScript.contractSites =
      [("whole", "outer"), ("whole", "inner")] := rfl
  refine ⟨distinct_nestedScript, mem_nestedScript, rfl, rfl, rfl, ?_, ?_⟩
  · rw [hsites]
    decide
  · have hcalls : Scenario.calls nestedFlow = nestedSteps.stepCalls := rfl
    rw [hcalls, ← stepLabels_eq_map, hsites]
    rfl

end Tree

end Flowchart
