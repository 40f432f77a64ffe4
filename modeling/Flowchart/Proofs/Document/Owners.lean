import Flowchart.Flow.Report
import Flowchart.Proofs.Flow.Construction

set_option relaxedAutoImplicit false
set_option autoImplicit false

/-!
# Owners in scripts

The report on a script documents the owners in it one by one: its contracts in the order of their
sites, and then its scenarios in the order of theirs, as far as they have a flow function.

## Main definitions

* `Flowchart.Tree.owners`: what is documented of a script.
* `Flowchart.Report.Documents`: the reports on given owners.
* `Flowchart.Report.Owned`: the reports on any owners.

## Main results

* `Flowchart.Report.exists_documents`: the report on a script documents the owners in it.
-/

namespace Flowchart

/-- What is documented of a script, with names: its contracts and then its scenarios, as far as
these have a flow function. -/
def Tree.owners (root : Tree) : List (String × Owner) :=
  (root.contractSites.map fun site => (site.name, .contract root site.body)) ++
    root.scenarioSites.flatMap fun site => site.body.toList.map fun function =>
      (site.name, .scenario (Names.ofSites root.contractSites) function)

namespace Report

/-- Whether the artifacts of a report are those of the given owners, one by one. -/
def Documents (owners : List (String × Owner)) (r : Report) : Prop :=
  List.Forall₂ (fun o a => o.2.artifact o.1 = .ok a) owners r.artifacts

/-- Whether all artifacts of a report are those of owners. -/
def Owned (r : Report) : Prop :=
  ∀ a ∈ r.artifacts, ∃ (o : Owner) (id : String), o.artifact id = .ok a

/-- A report without artifacts documents nothing. -/
lemma documents_notes (notes : List Note) : Documents [] ⟨[], notes⟩ :=
  .nil

/-- A report on one owner documents it. -/
lemma documents_single {o : Owner} {id : String} {a : Artifact} (h : o.artifact id = .ok a)
    (notes : List Note) : Documents [(id, o)] ⟨[a], notes⟩ :=
  .cons h .nil

/-- Reports one after the other document the owners one after the other. -/
lemma documents_join {rows : List (List (String × Owner))} {reports : List Report}
    (h : List.Forall₂ Documents rows reports) : Documents rows.flatten (join reports) := by
  induction h with
  | nil => exact .nil
  | cons hrow _ ih => exact List.rel_append hrow ih

/-- The report on a contract of a script documents the contract. -/
lemma exists_documents_contract (root : Tree) (site : Site Tree) :
    ∃ r, ofContractSite root site = .ok r ∧
      Documents [(site.name, .contract root site.body)] r := by
  obtain ⟨a, ha⟩ := (Owner.contract root site.body).exists_artifact site.name
  have hcontract : Artifact.ofContract site.name (.ofObject root site.body) = .ok a := ha
  exact ⟨_, by rw [ofContractSite, hcontract]; rfl, documents_single ha _⟩

/-- The report on a scenario of a script documents the scenario if it has a flow function. -/
lemma exists_documents_scenario (names : Names) (site : Site (Option Tree)) :
    ∃ r, ofScenarioSite names site = .ok r ∧
      Documents (site.body.toList.map fun function => (site.name, .scenario names function)) r := by
  unfold ofScenarioSite
  cases site.body with
  | none => exact ⟨_, rfl, documents_notes _⟩
  | some function =>
    obtain ⟨a, ha⟩ := (Owner.scenario names function).exists_artifact site.name
    have hscenario : Artifact.ofScenario site.name (.ofFunction names function) = .ok a := ha
    exact ⟨_, by simp only [hscenario]; rfl, documents_single ha _⟩

/-- The reports on places of a script, if each place has one. -/
lemma exists_mapM_documents {α : Type} {report : α → Except Draft.DanglingEdge Report}
    {owners : α → List (String × Owner)} (h : ∀ x, ∃ r, report x = .ok r ∧ Documents (owners x) r)
    (xs : List α) :
    ∃ rs, xs.mapM report = .ok rs ∧ List.Forall₂ Documents (xs.map owners) rs := by
  simp only [mapM_eq_ok_iff, List.forall₂_map_left_iff]
  induction xs with
  | nil => exact ⟨[], .nil, .nil⟩
  | cons x xs ih =>
    obtain ⟨r, hr, hx⟩ := h x
    obtain ⟨rs, hrs, hxs⟩ := ih
    exact ⟨r :: rs, .cons hr hrs, .cons hx hxs⟩

/-- **The report on a script documents the owners in it**, whatever its tree lacks. -/
lemma exists_documents (path : Path) (root : Tree) :
    ∃ r, ofTree path root = .ok r ∧ Documents root.owners r := by
  obtain ⟨contracts, hcontracts, hdocuments⟩ :=
    exists_mapM_documents (exists_documents_contract root) root.contractSites
  obtain ⟨scenarios, hscenarios, hdocuments'⟩ := exists_mapM_documents
    (exists_documents_scenario (Names.ofSites root.contractSites)) root.scenarioSites
  have hreport : ofTree path root = .ok (join (⟨[], contractNotes path root⟩ :: contracts ++
      ⟨[], scenarioNotes path root⟩ :: scenarios)) := by
    simp only [ofTree, hcontracts, bind, Except.bind, hscenarios, pure, Except.pure]
  have hall : List.Forall₂ Documents _ (⟨[], contractNotes path root⟩ :: contracts ++
      ⟨[], scenarioNotes path root⟩ :: scenarios) :=
    List.rel_append (.cons (documents_notes _) hdocuments) (.cons (documents_notes _) hdocuments')
  refine ⟨_, hreport, ?_⟩
  have hjoin := documents_join hall
  rwa [List.flatten_append, List.flatten_cons, List.flatten_cons, List.nil_append, List.nil_append,
    ← List.flatMap_def, ← List.flatMap_def, ← List.map_eq_flatMap, ← Tree.owners] at hjoin

/-- The artifacts of a report that documents owners are those of owners. -/
lemma Documents.owned {owners : List (String × Owner)} {r : Report} (h : Documents owners r) :
    r.Owned := by
  obtain ⟨artifacts, notes⟩ := r
  unfold Documents at h
  dsimp only at h
  induction h with
  | nil => exact fun a ha => absurd ha List.not_mem_nil
  | cons hao _ ih => exact List.forall_mem_cons.mpr ⟨⟨_, _, hao⟩, ih⟩

end Report

end Flowchart
