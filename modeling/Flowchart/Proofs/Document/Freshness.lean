import Flowchart.Proofs.Document.Drift
import Flowchart.Proofs.Document.Owners

set_option relaxedAutoImplicit false
set_option autoImplicit false

/-!
# Documents that were just rendered

A document records, besides the fingerprints of its artifacts, whatever the names and labels in it
spell as markers: these are written as they stand in the script. So nothing is wrong with a document
that was just rendered if and only if all such texts spell fingerprints of its artifacts.

## Main definitions

* `Flowchart.Artifact.shown`: the texts that the document of an artifact takes from the script.

## Main results

* `Flowchart.Document.mem_recorded_render`: all that a document records.
* `Flowchart.Drift.isCurrent_render_iff`: when nothing is wrong with a rendered document.
* `Flowchart.Report.check_rendered`: the same for the document of a file.
-/

namespace Flowchart

open Marker (Records recorded)

/-! ## Lines of diagrams -/

/-- An identifier is written without brackets. -/
lemma bracket_not_mem_nodeId {k : ℕ} : '<' ∉ (nodeId k).toList :=
  not_mem_nodeId_of_ne (by decide) (by decide)

namespace Graph

/-- The line of a node records what its label does. -/
lemma records_nodeLine {n : Node} {k : ℕ} (hid : n.id = nodeId k) :
    Records (Diagram.nodeLine n) (recorded (Diagram.escape n.label)) := by
  have hbrackets : '<' ∉ (Diagram.brackets n.kind).1.toList ∧
      '<' ∉ (Diagram.brackets n.kind).2.toList := by
    cases n.kind <;> decide
  have hlead : Records ("  " ++ n.id ++ (Diagram.brackets n.kind).1 ++ "\"") [] := by
    refine .plain ?_
    simp [hid, bracket_not_mem_nodeId, hbrackets]
  have hlabel : Records (Diagram.escape n.label ++ ("\"" ++ (Diagram.brackets n.kind).2))
      (recorded (Diagram.escape n.label)) := by
    have htail : ("\"" ++ (Diagram.brackets n.kind).2).toList =
        '"' :: (Diagram.brackets n.kind).2.toList := by simp
    refine .quoted _ (by decide) htail ?_
    simp [hbrackets]
  have hline := hlead.append hlabel
  rwa [← String.append_assoc, ← String.append_assoc, List.nil_append, ← Diagram.nodeLine] at hline

/-- The label of an edge in its line records what it does by itself. -/
lemma records_edgeLabel (label : Option String) :
    Records (Diagram.edgeLabel label) (recorded (Diagram.escape (label.getD ""))) := by
  have hempty : Records "" (recorded (Diagram.escape "")) := .empty
  cases label with
  | none => exact hempty
  | some text =>
    by_cases htext : text = ""
    · subst htext
      exact hempty
    · have hshown : Diagram.edgeLabel (some text) = "|\"" ++ Diagram.escape text ++ "\"|" :=
        if_neg htext
      have hlead : Records "|\"" [] := .plain (by decide)
      have hlabel : Records (Diagram.escape text ++ "\"|") (recorded (Diagram.escape text)) :=
        .quoted _ (by decide : Marker.Foreign '"') rfl (by decide)
      have hline := hlead.append hlabel
      rwa [← String.append_assoc, ← hshown, List.nil_append] at hline

/-- The line of an edge records what its label does. -/
lemma records_edgeLine {e : Edge} {j k : ℕ} (hsource : e.source = nodeId j)
    (htarget : e.target = nodeId k) :
    Records (Diagram.edgeLine e) (recorded (Diagram.escape (e.label.getD ""))) := by
  have hlead : Records ("  " ++ e.source ++ " -->") [] := by
    refine .plain ?_
    simp [hsource, bracket_not_mem_nodeId]
  have htail : Records (" " ++ e.target) [] := by
    refine .plain ?_
    simp [htarget, bracket_not_mem_nodeId]
  have hline := (hlead.append (records_edgeLabel e.label)).append htail
  rwa [← String.append_assoc, List.nil_append, List.append_nil, ← Diagram.edgeLine] at hline

/-- **A diagram** records what the labels of its nodes and edges do. -/
lemma Numbered.records_diagram {g : Graph} (h : g.Numbered) :
    Records g.diagram ((g.nodes.flatMap fun n => recorded (Diagram.escape n.label)) ++
      g.edges.flatMap fun e => recorded (Diagram.escape (e.label.getD ""))) := by
  have hnode : ∀ n ∈ g.nodes,
      Records (Diagram.nodeLine n) (recorded (Diagram.escape n.label)) := by
    intro n hn
    obtain ⟨k, hid⟩ := h.node n hn
    exact records_nodeLine hid
  have hedge : ∀ e ∈ g.edges,
      Records (Diagram.edgeLine e) (recorded (Diagram.escape (e.label.getD ""))) := by
    intro e he
    obtain ⟨j, k, hsource, htarget⟩ := h.edge e he
    exact records_edgeLine hsource htarget
  have hfence : Records Diagram.opening [] ∧ Records "flowchart TD" [] ∧
      Records Diagram.closing [] :=
    ⟨.plain (by decide), .plain (by decide), .plain (by decide)⟩
  have hlines : ∀ l ∈ g.diagramLines, Records l (recorded l) := by
    simp only [diagramLines, List.forall_mem_append, List.forall_mem_cons, List.forall_mem_map]
    exact ⟨⟨⟨⟨hfence.1.self, hfence.2.1.self, fun _ hl => absurd hl List.not_mem_nil⟩,
      fun n hn => (hnode n hn).self⟩, fun e he => (hedge e he).self⟩,
      hfence.2.2.self, fun _ hl => absurd hl List.not_mem_nil⟩
  have hdiagram := Records.intercalate hlines
  have hfound : g.diagramLines.flatMap recorded =
      (g.nodes.flatMap fun n => recorded (Diagram.escape n.label)) ++
        g.edges.flatMap fun e => recorded (Diagram.escape (e.label.getD "")) := by
    rw [List.flatMap_congr fun n hn => (hnode n hn).eq.symm,
      List.flatMap_congr fun e he => (hedge e he).eq.symm]
    simp [diagramLines, List.flatMap_map, hfence.1.eq, hfence.2.1.eq, hfence.2.2.eq]
  rwa [hfound] at hdiagram

/-! ## Sections -/

/-- A number is written without brackets. -/
lemma Summary.bracket_not_mem_repr (n : Int) : '<' ∉ n.repr.toList := by
  have hdigits : ∀ k : ℕ, '<' ∉ (toString k).toList := by
    intro k h
    rw [Nat.toString_eq_ofList_toDigits, String.toList_ofList] at h
    exact absurd (Nat.isDigit_of_mem_toDigits (by decide) (by decide) h) (by decide)
  cases n with
  | ofNat k => exact hdigits k
  | negSucc k =>
    have hrepr : (Int.negSucc k).repr = "-" ++ toString (k + 1) := rfl
    intro h
    rw [hrepr, String.toList_append] at h
    rcases List.mem_append.mp h with h | h
    · exact absurd h (by decide)
    · exact hdigits (k + 1) h

/-- The table and the warning of a summary record nothing. -/
lemma Summary.records_lines (s : Summary) : ∀ l ∈ s.table ++ s.warning, Records l [] := by
  intro l hl
  refine .plain ?_
  rcases List.mem_append.mp hl with hl | hl
  · simp only [table, List.mem_cons, List.not_mem_nil, or_false] at hl
    rcases hl with rfl | rfl | rfl | rfl | rfl | rfl <;>
      simp [bracket_not_mem_repr]
  · unfold warning at hl
    split_ifs at hl
    · simp only [List.mem_cons, List.not_mem_nil, or_false] at hl
      rcases hl with rfl | rfl <;> simp [bracket_not_mem_repr]
    · cases hl

end Graph

namespace Artifact

variable {a : Artifact}

/-- The labels in the diagram of an artifact, as they are written there. -/
def labels (a : Artifact) : List String :=
  (a.graph.nodes.map fun n => Diagram.escape n.label) ++
    a.graph.edges.map fun e => Diagram.escape (e.label.getD "")

/-- The texts that the document of an artifact takes from the script: its name and the labels in its
diagram. -/
def shown (a : Artifact) : List String :=
  a.ownerId :: a.labels

/-- A heading records what the name in it does. -/
lemma records_heading (a : Artifact) : Records a.heading (recorded a.ownerId) := by
  have hlead : Records ("## " ++ a.ownerKind.title ++ ": `") [] := by
    refine .plain ?_
    cases a.ownerKind <;> decide
  have hname : Records (a.ownerId ++ "`") (recorded a.ownerId) :=
    .quoted _ (by decide : Marker.Foreign '`') rfl (by decide)
  have hheading := hlead.append hname
  rwa [← String.append_assoc, List.nil_append, ← heading] at hheading

/-- **A section** records the fingerprint of its artifact and what the labels in it do. -/
lemma OfDraft.records_section (h : a.OfDraft) :
    Records a.documentSection (a.hash :: a.labels.flatMap recorded) := by
  obtain ⟨hne, hdigits, hcase⟩ := h.digits_hash
  have hmarker : Records (Marker.render a.hash) [a.hash] := by
    have hrender := Records.render hne hdigits
    rwa [hcase] at hrender
  have hdiagram : Records a.diagram (a.labels.flatMap recorded) := by
    obtain ⟨kind, id, d, g, hg, hnodes, rfl⟩ := h
    rw [labels, List.flatMap_append, List.flatMap_map, List.flatMap_map]
    exact (Draft.numbered_of_freeze hg hnodes).records_diagram
  have hempty : Records "" [] := .empty
  have hdetails : Records "<details>" [] := .tags (by decide) (by decide)
  have hsummary : Records "<summary>Flow diagram</summary>" [] := .tags (by decide) (by decide)
  have hend : Records "</details>" [] := .tags (by decide) (by decide)
  have htitle : Records "#### Flow summary" [] := .plain (by decide)
  have htable := a.summary.records_lines
  have hlines : ∀ l ∈ a.sectionLines, Records l (recorded l) := by
    intro l hl
    rw [sectionLines, List.append_assoc _ a.summary.table] at hl
    rcases List.mem_append.mp hl with hl | hl
    · rcases List.mem_append.mp hl with hl | hl
      · simp only [List.mem_cons, List.not_mem_nil, or_false] at hl
        rcases hl with rfl | rfl | rfl | rfl | rfl | rfl | rfl | rfl | rfl | rfl
        · exact hmarker.self
        · exact hdetails.self
        · exact hsummary.self
        · exact hempty.self
        · exact hdiagram.self
        · exact hempty.self
        · exact hend.self
        · exact hempty.self
        · exact htitle.self
        · exact hempty.self
      · exact (htable l hl).self
    · obtain rfl := List.mem_singleton.mp hl
      exact hempty.self
  have hnone : (a.summary.table ++ a.summary.warning).flatMap recorded = [] :=
    List.flatMap_eq_nil_iff.mpr fun l hl => (htable l hl).eq
  have hsection := Records.intercalate hlines
  have hfound : a.sectionLines.flatMap recorded = a.hash :: a.labels.flatMap recorded := by
    rw [sectionLines, List.append_assoc _ a.summary.table, List.flatMap_append,
      List.flatMap_append, hnone]
    simp only [List.flatMap_cons, List.flatMap_nil, hmarker.eq, hdetails.eq, hsummary.eq,
      hempty.eq, hdiagram.eq, hend.eq, htitle.eq, List.nil_append, List.append_nil,
      List.cons_append]
  rwa [hfound, ← documentSection] at hsection

end Artifact

/-! ## Documents -/

namespace Document

/-- **All that a rendered document records**: for each artifact what its name does, its fingerprint,
and what the labels in its diagram do. -/
lemma mem_recorded_render {artifacts : List Artifact} (h : ∀ a ∈ artifacts, a.OfDraft)
    {hash : String} : hash ∈ recorded (render defaultTitle artifacts) ↔
      ∃ a ∈ artifacts, a.hash = hash ∨ ∃ text ∈ a.shown, hash ∈ recorded text := by
  have htitle : Records ("# " ++ defaultTitle) [] := .plain (by decide)
  have hempty : Records "" [] := .empty
  have hlines : ∀ l ∈ ["# " ++ defaultTitle, ""] ++ artifacts.flatMap Artifact.documentLines,
      Records l (recorded l) := by
    intro l hl
    rcases List.mem_append.mp hl with hl | hl
    · simp only [List.mem_cons, List.not_mem_nil, or_false] at hl
      rcases hl with rfl | rfl
      · exact htitle.self
      · exact hempty.self
    · obtain ⟨a, ha, hl⟩ := List.mem_flatMap.mp hl
      simp only [Artifact.documentLines, List.mem_cons, List.not_mem_nil, or_false] at hl
      rcases hl with rfl | rfl | rfl
      · exact a.records_heading.self
      · exact hempty.self
      · exact (h a ha).records_section.self
  have hfound : ∀ a ∈ artifacts, a.documentLines.flatMap recorded =
      recorded a.ownerId ++ a.hash :: a.labels.flatMap recorded := by
    intro a ha
    simp [Artifact.documentLines, a.records_heading.eq, hempty.eq, (h a ha).records_section.eq]
  rw [render, (Records.intercalate hlines).eq, List.flatMap_append, List.flatMap_assoc,
    List.flatMap_congr hfound]
  simp only [List.flatMap_cons, List.flatMap_nil, htitle.eq, hempty.eq, List.nil_append,
    List.mem_flatMap, List.mem_append, List.mem_cons, Artifact.shown, exists_eq_or_imp]
  refine exists_congr fun a => and_congr_right fun _ => ?_
  rw [eq_comm, or_left_comm]

end Document

/-! ## Drift of rendered documents -/

namespace Drift

variable {artifacts : List Artifact}

/-- **No artifact is outdated** in the document that was rendered of it. -/
lemma outdated_render (h : ∀ a ∈ artifacts, a.OfDraft) (title : String) :
    (check artifacts (Document.render title artifacts)).outdated = [] := by
  rw [List.eq_nil_iff_forall_not_mem]
  intro a ha
  obtain ⟨hmem, hmissing⟩ := mem_outdated_iff.mp ha
  exact hmissing (Document.hash_mem_recorded hmem (h a hmem) title)

/-- **What is orphaned in a rendered document**: what the texts in it spell as markers of other
fingerprints. -/
lemma mem_orphaned_render_iff (h : ∀ a ∈ artifacts, a.OfDraft) {hash : String} :
    hash ∈ (check artifacts (Document.render Document.defaultTitle artifacts)).orphaned ↔
      (∃ a ∈ artifacts, ∃ text ∈ a.shown, hash ∈ recorded text) ∧
        ∀ a ∈ artifacts, a.hash ≠ hash := by
  rw [mem_orphaned_iff, Document.mem_recorded_render h]
  refine and_congr_left fun hnone => exists_congr fun a => and_congr_right fun ha => ?_
  exact or_iff_right (hnone a ha)

/-- **Nothing is wrong with a rendered document** if and only if the texts in it spell no other
fingerprints than those of its artifacts. -/
lemma isCurrent_render_iff (h : ∀ a ∈ artifacts, a.OfDraft) :
    (check artifacts (Document.render Document.defaultTitle artifacts)).isCurrent = true ↔
      ∀ a ∈ artifacts, ∀ text ∈ a.shown, ∀ hash ∈ recorded text,
        ∃ b ∈ artifacts, b.hash = hash := by
  rw [isCurrent_iff, and_iff_right (outdated_render h _), List.eq_nil_iff_forall_not_mem]
  simp only [mem_orphaned_render_iff h]
  constructor
  · intro hnone a ha text htext hash hhash
    by_contra hmissing
    exact hnone hash ⟨⟨a, ha, text, htext, hhash⟩, fun b hb heq => hmissing ⟨b, hb, heq⟩⟩
  · rintro hall hash ⟨⟨a, ha, text, htext, hhash⟩, hmissing⟩
    obtain ⟨b, hb, heq⟩ := hall a ha text htext hash hhash
    exact hmissing b hb heq

end Drift

/-! ## Reports on files -/

namespace Report

/-- **Every file has a report on owners**, whatever its tree lacks. -/
lemma exists_ofFile (path : Path) (parse : Language → Tree) :
    ∃ r, ofFile path parse = .ok r ∧ r.Owned := by
  unfold ofFile
  cases Language.ofPath? path with
  | none => exact ⟨_, rfl, fun _ ha => absurd ha List.not_mem_nil⟩
  | some language =>
    obtain ⟨r, hr, hdocuments⟩ := exists_documents path (parse language)
    exact ⟨r, hr, hdocuments.owned⟩

/-- The artifacts of a report on owners are those of drafts. -/
lemma Owned.ofDraft {r : Report} (h : r.Owned) : ∀ a ∈ r.artifacts, a.OfDraft := by
  intro a ha
  obtain ⟨o, id, hoa⟩ := h a ha
  exact .owner hoa

/-- **A document that was just rendered.** For every file, whatever its tree: there is a report, no
artifact of it is outdated in its document under the default title, and what is orphaned there is
what names and labels of the artifacts spell as markers of fingerprints that no artifact has. So
nothing is wrong with the document if and only if the markers in these texts are those of artifacts.

**Proof sketch.** Names and labels stand between characters that are in no marker, so no marker
starts in such a text and ends behind it (`Document.mem_recorded_render`). -/
theorem check_rendered (path : Path) (parse : Language → Tree) :
    ∃ r, ofFile path parse = .ok r ∧
      let d := Drift.check r.artifacts (Document.render Document.defaultTitle r.artifacts)
      d.outdated = [] ∧
        (∀ hash, hash ∈ d.orphaned ↔
          (∃ a ∈ r.artifacts, ∃ text ∈ a.shown, hash ∈ recorded text) ∧
            ∀ a ∈ r.artifacts, a.hash ≠ hash) ∧
        (d.isCurrent = true ↔
          ∀ a ∈ r.artifacts, ∀ text ∈ a.shown, ∀ hash ∈ recorded text,
            ∃ b ∈ r.artifacts, b.hash = hash) := by
  obtain ⟨r, hr, howned⟩ := exists_ofFile path parse
  have hdraft := howned.ofDraft
  exact ⟨r, hr, Drift.outdated_render hdraft _, fun hash => Drift.mem_orphaned_render_iff hdraft,
    Drift.isCurrent_render_iff hdraft⟩

/-- The object literal `{ transition: () => 1 }`. -/
def markedObject : Tree :=
  .node ⟨7, "object", true, none, 1, "\x7b transition: () => 1 \x7d"⟩ [
    .node ⟨8, "pair", true, none, 1, "transition: () => 1"⟩ [
      .node ⟨9, "property_identifier", true, some "key", 1, "transition"⟩ [],
      .node ⟨10, "arrow_function", true, some "value", 1, "() => 1"⟩ [
        .node ⟨11, "formal_parameters", true, none, 1, "()"⟩ [],
        .node ⟨12, "number", true, some "body", 1, "1"⟩ []]]]

/-- The script `define("<!-- flow-hash: 0 -->", { transition: () => 1 })`. -/
def markedScript : Tree :=
  .node ⟨0, "program", true, none, 1, ""⟩ [
    .node ⟨1, "expression_statement", true, none, 1, ""⟩ [
      .node ⟨2, "call_expression", true, none, 1, ""⟩ [
        .node ⟨3, "identifier", true, some "function", 1, "define"⟩ [],
        .node ⟨4, "arguments", true, some "arguments", 1, ""⟩ [
          .node ⟨5, "string", true, none, 1, "\"<!-- flow-hash: 0 -->\""⟩ [
            .node ⟨6, "string_fragment", true, none, 1, "<!-- flow-hash: 0 -->"⟩ []],
          markedObject]]]]

/-- **A contract whose name is a marker** makes its own document out of date: the name is recorded
as a fingerprint that nothing has. -/
theorem not_current_of_marker :
    ∃ r, ofFile ⟨.working, ["a.ts"]⟩ (fun _ => markedScript) = .ok r ∧
      (Drift.check r.artifacts
        (Document.render Document.defaultTitle r.artifacts)).isCurrent = false := by
  set site : Site Tree := ⟨"<!-- flow-hash: 0 -->", markedObject, 1, none⟩ with hsite
  have hcontracts : markedScript.contractSites = [site] := rfl
  have hscenarios : markedScript.scenarioSites = [] := rfl
  have hlanguage : Language.ofPath? ⟨.working, ["a.ts"]⟩ = some .typescript := by
    decide +kernel
  obtain ⟨a, ha⟩ := (Owner.contract markedScript markedObject).exists_artifact site.name
  have hartifact : Artifact.ofContract site.name (.ofObject markedScript site.body) = .ok a := ha
  obtain ⟨notes, hnotes⟩ : ∃ notes, ofContractSite markedScript site = .ok ⟨[a], notes⟩ :=
    ⟨_, by rw [ofContractSite, hartifact]; rfl⟩
  obtain ⟨r, hr, hartifacts⟩ :
      ∃ r, ofFile ⟨.working, ["a.ts"]⟩ (fun _ => markedScript) = .ok r ∧ r.artifacts = [a] := by
    simp only [ofFile, hlanguage, ofTree, hcontracts, hscenarios, List.mapM_cons, List.mapM_nil,
      hnotes]
    exact ⟨_, rfl, rfl⟩
  have hdraft : ∀ b ∈ [a], b.OfDraft := List.forall_mem_singleton.mpr (.owner ha)
  obtain ⟨g, -, rfl⟩ := Owner.exists_of_artifact ha
  have hname : "0" ∈ recorded site.name := by decide
  have hrecorded := (Document.mem_recorded_render hdraft).mpr
    ⟨_, List.mem_singleton.mpr rfl, .inr ⟨site.name, List.mem_cons_self, hname⟩⟩
  refine ⟨r, hr, ?_⟩
  rw [hartifacts]
  -- no fingerprint is that short
  exact Drift.not_current_of_short hdraft hrecorded (by decide)

end Report

end Flowchart
