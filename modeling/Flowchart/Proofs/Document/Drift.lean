import Flowchart.Document.Drift
import Flowchart.Document.Section
import Flowchart.Proofs.Digest.Hex
import Flowchart.Proofs.Document.Marker
import Flowchart.Proofs.Flow.Construction
import Flowchart.Proofs.Graph.CanonicalText

set_option relaxedAutoImplicit false
set_option autoImplicit false

/-!
# Drift between artifacts and their document

A document that was rendered from artifacts records the fingerprints of all of them, whatever texts
it holds otherwise. So its drift from other artifacts tells which of the former are gone, and does
not complain about those that are still there, as long as the hash function does not collide.

## Main definitions

* `Flowchart.Artifact.Same`: artifacts of the same owner with graphs that are alike.
* `Flowchart.Artifact.OfDraft`: artifacts of graphs that were drawn.

## Main results

* `Flowchart.Document.hash_mem_recorded`: a rendered document records every fingerprint.
* `Flowchart.Drift.check_sound`: what drift from a rendered document says about its artifacts.
-/

namespace Flowchart

/-! ## Texts within texts -/

/-- Whether a text holds another one. -/
def Text.Holds (text part : String) : Prop :=
  ∃ before behind, text = before ++ part ++ behind

/-- A text within a text within a third text. -/
lemma Text.Holds.trans {s t u : String} (h : Text.Holds s t) (h' : Text.Holds t u) :
    Text.Holds s u := by
  obtain ⟨before, behind, rfl⟩ := h
  obtain ⟨before', behind', rfl⟩ := h'
  exact ⟨before ++ before', behind' ++ behind, by simp only [String.append_assoc]⟩

/-- A text that is joined from lines holds each of them. -/
lemma Text.holds_intercalate {l : String} {ls : List String} (h : l ∈ ls) :
    Text.Holds ("\n".intercalate ls) l := by
  induction ls with
  | nil => cases h
  | cons l' ls ih =>
    by_cases hnil : ls = []
    · subst hnil
      obtain rfl := List.mem_singleton.mp h
      exact ⟨"", "", by simp⟩
    · rw [String.intercalate_cons_of_ne_nil hnil]
      rcases List.mem_cons.mp h with rfl | h
      · exact ⟨"", "\n" ++ "\n".intercalate ls, by simp [String.append_assoc]⟩
      · obtain ⟨before, behind, hjoin⟩ := ih h
        exact ⟨l' ++ "\n" ++ before, behind, by rw [hjoin]; simp only [String.append_assoc]⟩

namespace Artifact

variable {a b : Artifact}

/-! ## Artifacts -/

/-- The text whose hash is the fingerprint of an artifact. -/
def text (a : Artifact) : String :=
  a.graph.canonicalText a.ownerKind a.ownerId

/-- Artifacts of the same owner with graphs that differ in the layout of labels only. -/
def Same (a b : Artifact) : Prop :=
  a.ownerKind = b.ownerKind ∧ a.ownerId = b.ownerId ∧ a.graph.Alike b.graph

/-- Artifacts of the graphs that drafts with nodes freeze to. -/
def OfDraft (a : Artifact) : Prop :=
  ∃ kind id d g, Draft.freeze d = .ok g ∧ g.nodes ≠ [] ∧ a = ofGraph kind id g

/-- The chart of a part has nodes. -/
lemma nodes_ne_nil_of_chart {finish : String} {part : Drawing} {g : Graph}
    (h : (Drawing.chart finish part).freeze = .ok g) : g.nodes ≠ [] := by
  rw [(Draft.freeze_eq_ok h).1]
  exact List.cons_ne_nil _ _

/-- The artifact of a contract is one of a draft. -/
lemma OfDraft.contract {id : String} {c : Contract} (h : ofContract id c = .ok a) : a.OfDraft := by
  rw [ofContract] at h
  cases hg : c.draft.freeze with
  | error fault => rw [hg] at h; cases h
  | ok g =>
    rw [hg] at h
    cases h
    exact ⟨.contract, id, c.draft, g, hg, nodes_ne_nil_of_chart hg, rfl⟩

/-- The artifact of a scenario is one of a draft. -/
lemma OfDraft.scenario {id : String} {s : Scenario} (h : ofScenario id s = .ok a) : a.OfDraft := by
  rw [ofScenario] at h
  cases hg : s.draft.freeze with
  | error fault => rw [hg] at h; cases h
  | ok g =>
    rw [hg] at h
    cases h
    exact ⟨.scenario, id, s.draft, g, hg, nodes_ne_nil_of_chart hg, rfl⟩

/-- The artifact of an owner is one of a draft. -/
lemma OfDraft.owner {o : Owner} {id : String} (h : o.artifact id = .ok a) : a.OfDraft := by
  cases o with
  | contract root object => exact .contract h
  | scenario names function => exact .scenario h

/-- The fingerprint of an artifact is the hash of its text. -/
lemma OfDraft.hash_eq (h : a.OfDraft) : a.hash = Sha256.hex (Text.Utf8.encode a.text) := by
  obtain ⟨kind, id, d, g, -, -, rfl⟩ := h
  rfl

/-- The fingerprint of an artifact is written in hexadecimal digits, the letters in lower case. -/
lemma OfDraft.digits_hash (h : a.OfDraft) : a.hash.toList ≠ [] ∧
    (∀ c ∈ a.hash.toList, Text.isHexDigit c = true) ∧
      String.ofList (a.hash.toList.map Char.toLower) = a.hash := by
  have hlower : ∀ c ∈ a.hash.toList, Text.LowerHex c := by
    rw [h.hash_eq]
    exact fun c hc => Sha256.lowerHex_of_mem_hex hc
  have hcase : a.hash.toList.map Char.toLower = a.hash.toList :=
    (List.map_congr_left fun c hc => (hlower c hc).2).trans (List.map_id _)
  refine ⟨?_, fun c hc => (hlower c hc).1, ?_⟩
  · rw [h.hash_eq]
    exact Sha256.hex_ne_empty _
  · rw [hcase, String.ofList_toList]

/-- The fingerprint of an artifact has 64 digits or more. -/
lemma OfDraft.le_length_hash (h : a.OfDraft) : 64 ≤ a.hash.toList.length := by
  rw [h.hash_eq]
  exact Sha256.le_length_hex _

/-- Artifacts have the same text if and only if they are the same. -/
lemma OfDraft.text_eq_iff (ha : a.OfDraft) (hb : b.OfDraft) : a.text = b.text ↔ a.Same b := by
  obtain ⟨kind, id, d, g, hg, hne, rfl⟩ := ha
  obtain ⟨kind', id', d', g', hg', hne', rfl⟩ := hb
  exact (Draft.numbered_of_freeze hg hne).canonicalText_eq_iff (Draft.numbered_of_freeze hg' hne')

/-- Artifacts with the same fingerprint are the same, unless the hash function collides on their
texts. -/
lemma OfDraft.same_of_hash_eq (ha : a.OfDraft) (hb : b.OfDraft)
    (hcollide : ¬ Sha256.Collide (Text.Utf8.encode a.text) (Text.Utf8.encode b.text))
    (h : a.hash = b.hash) : a.Same b := by
  rw [ha.hash_eq, hb.hash_eq] at h
  rw [← ha.text_eq_iff hb]
  by_contra hne
  exact hcollide ⟨fun henc => hne (Text.Utf8.encode_inj henc), h⟩

/-- The same artifacts have the same fingerprint. -/
lemma OfDraft.hash_eq_of_same (ha : a.OfDraft) (hb : b.OfDraft) (h : a.Same b) :
    a.hash = b.hash := by
  rw [ha.hash_eq, hb.hash_eq, (ha.text_eq_iff hb).mpr h]

end Artifact

/-! ## Documents -/

namespace Document

/-- A rendered document holds the marker of each of its artifacts. -/
lemma holds_marker {artifacts : List Artifact} {a : Artifact} (h : a ∈ artifacts) (title : String) :
    Text.Holds (render title artifacts) (Marker.render a.hash) := by
  have hsection : Text.Holds (render title artifacts) a.documentSection := by
    refine Text.holds_intercalate (List.mem_append_right _ (List.mem_flatMap.mpr ⟨a, h, ?_⟩))
    simp [Artifact.documentLines]
  refine hsection.trans (Text.holds_intercalate ?_)
  simp [Artifact.sectionLines]

/-- **A rendered document records the fingerprint of each of its artifacts.** -/
lemma hash_mem_recorded {artifacts : List Artifact} {a : Artifact} (h : a ∈ artifacts)
    (hdraft : a.OfDraft) (title : String) : a.hash ∈ Marker.recorded (render title artifacts) := by
  obtain ⟨before, behind, hdocument⟩ := holds_marker h title
  obtain ⟨hne, hdigits, hcase⟩ := hdraft.digits_hash
  rw [hdocument, Marker.recorded_append_render hne hdigits, hcase]
  exact List.mem_append_right _ List.mem_cons_self

end Document

/-! ## Drift -/

namespace Drift

variable {artifacts : List Artifact} {document : String}

/-- Nothing is wrong with a document if no artifact is outdated and no fingerprint orphaned. -/
lemma isCurrent_iff {d : Drift} : d.isCurrent = true ↔ d.outdated = [] ∧ d.orphaned = [] := by
  rw [isCurrent, Bool.and_eq_true, List.isEmpty_iff, List.isEmpty_iff]

/-- What a document records and no artifact has is orphaned. -/
lemma mem_orphaned_iff {hash : String} :
    hash ∈ (check artifacts document).orphaned ↔
      hash ∈ Marker.recorded document ∧ ∀ a ∈ artifacts, a.hash ≠ hash := by
  simp [check]

/-- Artifacts that a document does not record are outdated. -/
lemma mem_outdated_iff {a : Artifact} :
    a ∈ (check artifacts document).outdated ↔
      a ∈ artifacts ∧ a.hash ∉ Marker.recorded document := by
  simp [check]

/-- If nothing is wrong with a document, every fingerprint in it is that of an artifact. -/
lemma exists_of_current {hash : String} (h : (check artifacts document).isCurrent = true)
    (hrecorded : hash ∈ Marker.recorded document) : ∃ a ∈ artifacts, a.hash = hash := by
  rw [isCurrent_iff] at h
  by_contra hnone
  have hmem : hash ∈ (check artifacts document).orphaned :=
    mem_orphaned_iff.mpr ⟨hrecorded, fun a ha heq => hnone ⟨a, ha, heq⟩⟩
  rw [h.2] at hmem
  exact List.not_mem_nil hmem

/-- A document is out of date if it records a fingerprint with too few digits. -/
lemma not_current_of_short (h : ∀ a ∈ artifacts, a.OfDraft) {hash : String}
    (hrecorded : hash ∈ Marker.recorded document) (hshort : hash.toList.length < 64) :
    (check artifacts document).isCurrent = false := by
  refine Bool.eq_false_iff.mpr fun hcurrent => ?_
  obtain ⟨a, ha, hhash⟩ := exists_of_current hcurrent hrecorded
  have hlength := (h a ha).le_length_hash
  rw [hhash] at hlength
  omega

/-- **Drift from a rendered document is sound.** For all old and new artifacts on whose texts the
hash function does not collide, and whatever the title, the names and the labels hold: the
fingerprint of an old artifact that is no longer there is orphaned, so that every old artifact is
still there if nothing is wrong, and a new artifact that was there before is not outdated.

**Proof sketch.** The document records the fingerprints of all old artifacts
(`Document.hash_mem_recorded`), and fingerprints tell artifacts apart as far as their graphs are not
alike (`Artifact.OfDraft.same_of_hash_eq`). -/
theorem check_sound {old new : List Artifact} (hold : ∀ a ∈ old, a.OfDraft)
    (hnew : ∀ b ∈ new, b.OfDraft)
    (hcollide : ∀ a ∈ old, ∀ b ∈ new,
      ¬ Sha256.Collide (Text.Utf8.encode a.text) (Text.Utf8.encode b.text)) (title : String) :
    (∀ a ∈ old, (∀ b ∈ new, ¬ a.Same b) →
        a.hash ∈ (check new (Document.render title old)).orphaned) ∧
      ((check new (Document.render title old)).isCurrent = true → ∀ a ∈ old, ∃ b ∈ new, a.Same b) ∧
      ∀ a ∈ old, ∀ b ∈ new, a.Same b → b ∉ (check new (Document.render title old)).outdated := by
  have hrecorded : ∀ a ∈ old, a.hash ∈ Marker.recorded (Document.render title old) :=
    fun a ha => Document.hash_mem_recorded ha (hold a ha) title
  have horphaned : ∀ a ∈ old, (∀ b ∈ new, ¬ a.Same b) →
      a.hash ∈ (check new (Document.render title old)).orphaned := by
    intro a ha hgone
    refine mem_orphaned_iff.mpr ⟨hrecorded a ha, fun b hb heq => hgone b hb ?_⟩
    exact (hold a ha).same_of_hash_eq (hnew b hb) (hcollide a ha b hb) heq.symm
  refine ⟨horphaned, fun hcurrent a ha => ?_, fun a ha b hb hsame houtdated => ?_⟩
  · by_contra hgone
    have hmem := horphaned a ha fun b hb hsame => hgone ⟨b, hb, hsame⟩
    rw [isCurrent, Bool.and_eq_true, List.isEmpty_iff, List.isEmpty_iff] at hcurrent
    rw [hcurrent.2] at hmem
    exact List.not_mem_nil hmem
  · apply (mem_outdated_iff.mp houtdated).2
    rw [← (hold a ha).hash_eq_of_same (hnew b hb) hsame]
    exact hrecorded a ha

/-- A label that is laid out in another way is not outdated. -/
theorem check_sound_of_layout :
    Artifact.ofGraph .contract "c" ⟨[⟨"n1", .action, "pay", 1⟩], []⟩ ∉
      (check [.ofGraph .contract "c" ⟨[⟨"n1", .action, "pay", 1⟩], []⟩]
        (Document.render "Flows"
          [.ofGraph .contract "c" ⟨[⟨"n1", .action, " pay\n", 1⟩], []⟩])).outdated := by
  have hdraft : ∀ label : String, (Artifact.ofGraph .contract "c"
      ⟨[⟨"n1", .action, label, 1⟩], []⟩).OfDraft := by
    intro label
    refine ⟨.contract, "c", ⟨[⟨.action, label⟩], []⟩, _, ?_, by simp, rfl⟩
    simp [Draft.freeze, Draft.nodes, nodeId]
    rfl
  have hsame : (Artifact.ofGraph .contract "c" ⟨[⟨"n1", .action, " pay\n", 1⟩], []⟩).Same
      (.ofGraph .contract "c" ⟨[⟨"n1", .action, "pay", 1⟩], []⟩) :=
    ⟨rfl, rfl, .cons ⟨rfl, rfl, by decide⟩ .nil, .nil⟩
  refine (check_sound (by simpa using hdraft _) (by simpa using hdraft _) ?_ "Flows").2.2 _
    (List.mem_singleton.mpr rfl) _ (List.mem_singleton.mpr rfl) hsame
  rintro a ha b hb ⟨hne, -⟩
  obtain rfl := List.mem_singleton.mp ha
  obtain rfl := List.mem_singleton.mp hb
  exact hne (congrArg _ (((hdraft _).text_eq_iff (hdraft _)).mpr hsame))

end Drift

end Flowchart
