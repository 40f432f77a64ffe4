import Flowchart.Proofs.Document.Drift
import Flowchart.Proofs.Text.Distinct
import Mathlib.Data.Finset.Lattice.Lemmas

set_option relaxedAutoImplicit false
set_option autoImplicit false

/-!
# Comparison in two passes

Artifacts are compared with a document in two passes: one over the artifacts, which collects their
fingerprints and finds what is outdated, and one over the recorded fingerprints, which finds what is
orphaned. Both differences of lists come with their own policy on repetitions: an artifact is found
outdated as often as it is given, and a fingerprint is found orphaned once, where it stands first.

## Main definitions

* `Flowchart.Comparison`: a comparison on its way.
* `Flowchart.Comparison.passArtifact`, `Flowchart.Comparison.passRecorded`: the steps of the passes.

## Main results

* `Flowchart.Comparison.drift_passes`: the two passes find the drift.
* `Flowchart.Drift.isCurrent_check_iff`: nothing is wrong if the recorded fingerprints are those of
  the artifacts, as sets.
* `Flowchart.Drift.orphaned_congr`, `Flowchart.Drift.isCurrent_congr`: order and repetitions of the
  artifacts do not matter.
-/

namespace Flowchart

/-- A comparison on its way. -/
structure Comparison where
  /-- The fingerprints of the artifacts so far. -/
  fresh : Finset String
  /-- The recorded fingerprints that were found orphaned. -/
  seen : Finset String
  /-- What was found so far. -/
  drift : Drift

namespace Comparison

/-! ## Passes -/

/-- The comparison in which nothing was looked at. -/
def start : Comparison :=
  ⟨∅, ∅, ⟨[], []⟩⟩

/-- The step for an artifact, where `recorded` holds the fingerprints in the document. -/
def passArtifact (recorded : Finset String) (c : Comparison) (a : Artifact) : Comparison :=
  ⟨insert a.hash c.fresh, c.seen,
    if a.hash ∈ recorded then c.drift else ⟨c.drift.outdated ++ [a], c.drift.orphaned⟩⟩

/-- The step for a recorded fingerprint. -/
def passRecorded (c : Comparison) (hash : String) : Comparison :=
  if hash ∉ c.fresh ∧ hash ∉ c.seen then
    ⟨c.fresh, insert hash c.seen, ⟨c.drift.outdated, c.drift.orphaned ++ [hash]⟩⟩
  else c

/-- The comparison of artifacts with a document, after both passes. -/
def passes (artifacts : List Artifact) (document : String) : Comparison :=
  let recorded := Marker.recorded document
  recorded.foldl passRecorded (artifacts.foldl (passArtifact recorded.toFinset) start)

/-- **The first pass** collects all fingerprints, and appends the artifacts whose fingerprints are
not recorded. -/
lemma foldl_passArtifact (recorded : Finset String) (artifacts : List Artifact) (c : Comparison) :
    artifacts.foldl (passArtifact recorded) c =
      ⟨c.fresh ∪ (artifacts.map Artifact.hash).toFinset, c.seen,
        ⟨c.drift.outdated ++ artifacts.filter fun a => a.hash ∉ recorded, c.drift.orphaned⟩⟩ := by
  induction artifacts generalizing c with
  | nil => simp
  | cons a artifacts ih =>
    rw [List.foldl_cons, ih, List.map_cons, List.toFinset_cons, List.filter_cons]
    by_cases hrecorded : a.hash ∈ recorded
    · simp [passArtifact, hrecorded]
    · simp [passArtifact, hrecorded]

/-- Whether what was seen in the second pass is what was found orphaned, so that looking up the one
is looking up the other. -/
def SeenOrphaned (c : Comparison) : Prop :=
  c.seen = c.drift.orphaned.toFinset

/-- A fingerprint of an artifact is passed over, and any other one is kept if it is new. -/
lemma SeenOrphaned.passRecorded_eq {c : Comparison} (h : c.SeenOrphaned) (hash : String) :
    (c.passRecorded hash).SeenOrphaned ∧ (c.passRecorded hash).fresh = c.fresh ∧
      (c.passRecorded hash).drift = ⟨c.drift.outdated,
        if hash ∈ c.fresh then c.drift.orphaned else keepNew c.drift.orphaned hash⟩ := by
  have hseen : hash ∈ c.seen ↔ hash ∈ c.drift.orphaned := by rw [h, List.mem_toFinset]
  unfold passRecorded keepNew
  by_cases hfresh : hash ∈ c.fresh
  · simp [hfresh, h]
  · by_cases hold : hash ∈ c.drift.orphaned
    · simp [hfresh, hseen, hold, h]
    · rw [if_pos ⟨hfresh, mt hseen.mp hold⟩, if_neg hfresh, if_neg hold]
      refine ⟨?_, rfl, rfl⟩
      rw [SeenOrphaned, h, List.toFinset_append, Finset.union_comm]
      rfl

/-- **The second pass** keeps what is new among the fingerprints that no artifact has. -/
lemma SeenOrphaned.foldl_passRecorded {c : Comparison} (h : c.SeenOrphaned)
    (recorded : List String) :
    (recorded.foldl passRecorded c).drift = ⟨c.drift.outdated,
      (recorded.filter fun hash => hash ∉ c.fresh).foldl keepNew c.drift.orphaned⟩ := by
  induction recorded generalizing c with
  | nil => rfl
  | cons hash recorded ih =>
    obtain ⟨hnext, hfresh, hdrift⟩ := h.passRecorded_eq hash
    rw [List.foldl_cons, ih hnext, hfresh, hdrift, List.filter_cons]
    by_cases hmem : hash ∈ c.fresh
    · simp [hmem]
    · simp [hmem]

/-- **The two passes find the drift.** -/
lemma drift_passes (artifacts : List Artifact) (document : String) :
    (passes artifacts document).drift = Drift.check artifacts document := by
  have hstart : (artifacts.foldl (passArtifact (Marker.recorded document).toFinset)
      start).SeenOrphaned := by
    rw [foldl_passArtifact]
    rfl
  rw [passes, hstart.foldl_passRecorded, foldl_passArtifact, foldl_keepNew, Drift.check]
  simp [start]

end Comparison

namespace Drift

variable {artifacts artifacts' : List Artifact} {document : String}

/-! ## Orphaned fingerprints -/

/-- What is orphaned is what is left of the recorded fingerprints without the repetitions. -/
lemma orphaned_eq_filter (artifacts : List Artifact) (document : String) :
    (check artifacts document).orphaned =
      (Marker.recorded document).eraseDups.filter fun h => h ∉ artifacts.map Artifact.hash := by
  rw [check, filter_eraseDups]

/-- Every fingerprint is orphaned once. -/
lemma nodup_orphaned (artifacts : List Artifact) (document : String) :
    (check artifacts document).orphaned.Nodup :=
  nodup_eraseDups _

/-- **Orphaned fingerprints** come in the order in which they appear first in the document. -/
lemma pairwise_orphaned (artifacts : List Artifact) (document : String) :
    (check artifacts document).orphaned.Pairwise fun h h' =>
      (Marker.recorded document).idxOf h < (Marker.recorded document).idxOf h' := by
  rw [orphaned_eq_filter]
  exact (pairwise_idxOf_eraseDups _).filter _

/-! ## Documents with nothing wrong -/

/-- **Nothing is wrong** if the recorded fingerprints are those of the artifacts, as sets. -/
lemma isCurrent_check_iff : (check artifacts document).isCurrent = true ↔
    (Marker.recorded document).toFinset = (artifacts.map Artifact.hash).toFinset := by
  have houtdated : (check artifacts document).outdated = [] ↔
      ∀ a ∈ artifacts, a.hash ∈ Marker.recorded document := by
    simp [check, List.filter_eq_nil_iff]
  have horphaned : (check artifacts document).orphaned = [] ↔
      ∀ hash ∈ Marker.recorded document, hash ∈ artifacts.map Artifact.hash := by
    rw [orphaned_eq_filter, List.filter_eq_nil_iff]
    simp
  rw [isCurrent_iff, houtdated, horphaned, Finset.Subset.antisymm_iff, and_comm, Finset.subset_iff,
    Finset.subset_iff]
  simp only [List.mem_toFinset, List.forall_mem_map]

/-- Nothing is wrong if there is nothing to describe. -/
lemma isCurrent_iff_describe (d : Drift) : d.isCurrent = true ↔ d.describe = [] := by
  rw [isCurrent_iff, describe, List.append_eq_nil_iff, List.map_eq_nil_iff, List.map_eq_nil_iff]

/-! ## Order and repetitions of artifacts -/

/-- The same artifacts have the same fingerprints. -/
lemma toFinset_map_hash (h : ∀ a, a ∈ artifacts ↔ a ∈ artifacts') :
    (artifacts.map Artifact.hash).toFinset = (artifacts'.map Artifact.hash).toFinset := by
  ext hash
  simp only [List.mem_toFinset, List.mem_map, h]

/-- **What is orphaned** does not depend on the order or the repetitions of the artifacts. -/
lemma orphaned_congr (h : ∀ a, a ∈ artifacts ↔ a ∈ artifacts') :
    (check artifacts document).orphaned = (check artifacts' document).orphaned := by
  rw [orphaned_eq_filter, orphaned_eq_filter]
  refine List.filter_congr fun hash _ => ?_
  simp only [← List.mem_toFinset, toFinset_map_hash h]

/-- **Whether nothing is wrong** does not depend on the order or the repetitions of the
artifacts. -/
lemma isCurrent_congr (h : ∀ a, a ∈ artifacts ↔ a ∈ artifacts') :
    (check artifacts document).isCurrent = (check artifacts' document).isCurrent := by
  rw [Bool.eq_iff_iff, isCurrent_check_iff, isCurrent_check_iff, toFinset_map_hash h]

end Drift

end Flowchart
