import Flowchart.Flow.Note
import Flowchart.Source.Language

set_option autoImplicit false

/-!
# Reports

All that is read from one script: the artifacts of its contracts and then those of its scenarios,
each in the order of the script, and the notes made on the way.

## Main definitions

* `Flowchart.Report`: artifacts and notes.
* `Flowchart.Report.ofTree`: the report on a script.
* `Flowchart.Report.ofFile`: the report on a file, empty if there is no grammar for it.
-/

namespace Flowchart

/-- Artifacts together with the notes made in reading them. -/
structure Report where
  artifacts : List Artifact
  notes : List Note

namespace Report

/-- Two reports, one after the other. -/
def append (r s : Report) : Report :=
  ⟨r.artifacts ++ s.artifacts, r.notes ++ s.notes⟩

/-- Reports one after the other. -/
def join (reports : List Report) : Report :=
  reports.foldr append ⟨[], []⟩

/-! ### Contracts -/

/-- The notes of looking for contracts. -/
def contractNotes (path : Path) (root : Tree) : List Note :=
  (root.contractSightings.filterMap fun
    | .site _ => none
    | .unrecognized line => some (.contractSkipped line))
    ++ [.contractsFound root.contractSites.length path]

/-- The report on one contract of a script. -/
def ofContractSite (root : Tree) (site : Site Tree) : Except Draft.DanglingEdge Report := do
  let contract := Contract.ofObject root site.body
  let artifact ← Artifact.ofContract site.name contract
  let remarks := match contract.transition with
    | .unreadable => [Note.transitionUnreadable site.name]
    | _ => []
  return ⟨[artifact], remarks ++ [.built artifact]⟩

/-! ### Scenarios -/

/-- The notes of looking for scenarios. -/
def scenarioNotes (path : Path) (root : Tree) : List Note :=
  (root.scenarioSightings.filterMap fun
    | .site _ => none
    | .unrecognized line => some (.scenarioSkipped line))
    ++ [.scenariosFound root.scenarioSites.length path]

/-- The report on one scenario of a script. -/
def ofScenarioSite (names : Names) (site : Site (Option Tree)) :
    Except Draft.DanglingEdge Report :=
  match site.body with
  | none => .ok ⟨[], [.flowMissing site.name]⟩
  | some function => do
    let scenario := Scenario.ofFunction names function
    let artifact ← Artifact.ofScenario site.name scenario
    let remarks := match scenario with
      | .unreadable => [Note.flowUnreadable site.name]
      | _ => []
    return ⟨[artifact], remarks ++ [.built artifact]⟩

/-! ### Scripts -/

/-- The report on a script. -/
def ofTree (path : Path) (root : Tree) : Except Draft.DanglingEdge Report := do
  let contracts ← root.contractSites.mapM (ofContractSite root)
  let names := Names.ofSites root.contractSites
  let scenarios ← root.scenarioSites.mapM (ofScenarioSite names)
  return join (⟨[], contractNotes path root⟩ :: contracts ++ ⟨[], scenarioNotes path root⟩
    :: scenarios)

/-- The report on a file, where `parse` makes the tree of the script in it. -/
def ofFile (path : Path) (parse : Language → Tree) : Except Draft.DanglingEdge Report :=
  match Language.ofPath? path with
  | none => .ok ⟨[], [.unsupportedFile path]⟩
  | some language => ofTree path (parse language)

end Report

end Flowchart
