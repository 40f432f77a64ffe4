import Flowchart.Proofs.Document.Owners
import Flowchart.Proofs.Graph.WellFormed

set_option relaxedAutoImplicit false
set_option autoImplicit false

/-!
# Formation of graphs

Extraction never fails, whatever a tree holds or lacks: no edge of a draft has an unknown endpoint.
So every contract and every scenario has an artifact, a script has those of its owners in order, and
all their graphs are well formed.

## Main results

* `Flowchart.Owner.exists_wellFormed`: every owner has an artifact with a well-formed graph.
* `Flowchart.Report.extraction_wellFormed`: extraction succeeds with well-formed graphs.
-/

namespace Flowchart

/-- The artifact of an owner has a well-formed graph. -/
lemma Owner.wellFormed_of_artifact {o : Owner} {id : String} {a : Artifact}
    (h : o.artifact id = .ok a) : a.graph.WellFormed := by
  obtain ⟨g, hg, rfl⟩ := exists_of_artifact h
  exact Draft.wellFormed_of_freeze hg

/-- **Every owner has an artifact with a well-formed graph.** -/
lemma Owner.exists_wellFormed (o : Owner) (id : String) :
    ∃ a, o.artifact id = .ok a ∧ a.graph.WellFormed := by
  obtain ⟨a, ha⟩ := o.exists_artifact id
  exact ⟨a, ha, wellFormed_of_artifact ha⟩

/-! ## Reports on scripts -/

namespace Report

/-- The artifacts of owners have well-formed graphs. -/
lemma Owned.wellFormed {r : Report} (h : r.Owned) : ∀ a ∈ r.artifacts, a.graph.WellFormed := by
  intro a ha
  obtain ⟨o, id, hartifact⟩ := h a ha
  exact Owner.wellFormed_of_artifact hartifact

/-- **Extraction never fails.** For every syntax tree, object, function and map of names: the
contract of the object and the scenario of the function have artifacts, and so has the script, one
for each owner in it. The nodes of their graphs are numbered from one on, and their edges run
between these nodes.

**Proof sketch.** A part of a chart draws edges only from where it is entered or from its own nodes
to its own nodes (`Fragment.Local`), and this is preserved by each way to draw. So every edge of a
draft joins nodes of it, and the draft freezes. -/
theorem extraction_wellFormed (path : Path) (root object function : Tree) (names : Names)
    (id : String) :
    (∃ a, Artifact.ofContract id (.ofObject root object) = .ok a ∧ a.graph.WellFormed) ∧
      (∃ a, Artifact.ofScenario id (.ofFunction names function) = .ok a ∧ a.graph.WellFormed) ∧
      ∃ r, ofTree path root = .ok r ∧ Documents root.owners r ∧
        ∀ a ∈ r.artifacts, a.graph.WellFormed := by
  refine ⟨(Owner.contract root object).exists_wellFormed id,
    (Owner.scenario names function).exists_wellFormed id, ?_⟩
  obtain ⟨r, hr, hdocuments⟩ := exists_documents path root
  exact ⟨r, hr, hdocuments, hdocuments.owned.wellFormed⟩

end Report

end Flowchart
