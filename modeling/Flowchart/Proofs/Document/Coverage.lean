import Flowchart.Proofs.Document.Drift
import Flowchart.Proofs.Flow.Labels
import Flowchart.Proofs.Graph.DiagramText

set_option relaxedAutoImplicit false
set_option autoImplicit false

/-!
# What fingerprints cover

The text that is hashed for an artifact determines the section of the artifact in a document, up to
labels that quote a text of the script with another layout than single spaces between words: a
fingerprint collapses their blanks, and a diagram does not.

## Main definitions

* `Flowchart.Owner.Uneven`: the nodes that quote such a text.
* `Flowchart.Artifact.EvenlyQuoted`: the artifacts of owners that have no such nodes.

## Main results

* `Flowchart.Artifact.fingerprint_covers`: what is shown of artifacts with the same text.
-/

namespace Flowchart

/-! ## Lines of diagrams -/

namespace Diagram

/-- A label in normal form is its own normal form; an absent one counts as empty. -/
lemma normalize_getD {l : Option String} (h : NormalLabel l) :
    Text.normalize (l.getD "") = l.getD "" := by
  cases l with
  | none => rfl
  | some text => exact (h text rfl).normalize_eq

/-- Edges that are alike have the same line if their labels are in normal form. -/
lemma edgeLine_eq_of_alike {e e' : Graph.Edge} (h : e.Alike e') (he : NormalLabel e.label)
    (he' : NormalLabel e'.label) : edgeLine e = edgeLine e' := by
  obtain ⟨hsource, htarget, hlabel⟩ := h
  rw [normalize_getD he, normalize_getD he'] at hlabel
  rw [edgeLine, edgeLine, hsource, htarget, edgeLabel_eq_of_getD_eq hlabel]

/-- Nodes that are alike have the same line if their labels are evenly spaced. -/
lemma nodeLine_eq_of_alike {n n' : Graph.Node} (h : n.Alike n') (hn : Text.EvenlySpaced n.label)
    (hn' : Text.EvenlySpaced n'.label) : nodeLine n = nodeLine n' := by
  obtain ⟨hid, hkind, hlabel⟩ := h
  rw [nodeLine, nodeLine, hid, hkind, escape_eq_of_normalize_eq hn hn' hlabel]

end Diagram

namespace Graph

variable {g g' : Graph}

/-- Flow graphs that are alike have the same summary. -/
lemma Alike.summary_eq (h : g.Alike g') : g.summary = g'.summary := by
  have hkinds : g.nodes.map Node.kind = g'.nodes.map Node.kind :=
    map_eq_of_forall₂ (fun halike => halike.2.1) h.1
  have hcount : ∀ p : NodeKind → Bool,
      g.nodes.countP (fun n => p n.kind) = g'.nodes.countP fun n => p n.kind := by
    intro p
    have hmap := congrArg (List.countP p) hkinds
    rwa [List.countP_map, List.countP_map] at hmap
  simp only [summary, hcount NodeKind.isStep, hcount NodeKind.isBranch, hcount (· == .error),
    hcount (· == .unsupported)]

end Graph

/-! ## Artifacts with the same text -/

namespace Owner

/-- The nodes that quote a text of the script which is not evenly spaced. -/
def Uneven (o : Owner) (n : Graph.Node) : Prop :=
  o.Quotes ⟨n.kind, n.label⟩ ∧ ¬ Text.EvenlySpaced n.label

variable {o : Owner}

/-- The nodes of an owner that quote nothing uneven have evenly spaced labels. -/
lemma even_of_not_uneven {g : Graph} (hg : o.draft.freeze = .ok g) {n : Graph.Node}
    (hn : n ∈ g.nodes) (h : ¬ o.Uneven n) : Text.EvenlySpaced n.label := by
  by_contra hlabel
  exact h ⟨(even_or_quotes hg hn).resolve_left hlabel, hlabel⟩

end Owner

namespace Artifact

variable {o o' : Owner} {id id' : String} {a b : Artifact}

/-- Artifacts of owners that quote nothing uneven. -/
def EvenlyQuoted (a : Artifact) : Prop :=
  ∃ (o : Owner) (id : String), o.artifact id = .ok a ∧ ∀ n ∈ a.graph.nodes, ¬ o.Uneven n

/-- **The edges of the same artifacts** have the same lines. -/
lemma Same.map_edgeLine (ha : o.artifact id = .ok a) (hb : o'.artifact id' = .ok b)
    (h : a.Same b) :
    a.graph.edges.map Diagram.edgeLine = b.graph.edges.map Diagram.edgeLine := by
  obtain ⟨g, hg, rfl⟩ := Owner.exists_of_artifact ha
  obtain ⟨g', hg', rfl⟩ := Owner.exists_of_artifact hb
  have hlines : List.Forall₂ (fun e e' => Diagram.edgeLine e = Diagram.edgeLine e')
      g.edges g'.edges :=
    forall₂_imp_of_mem h.2.2.2 fun e he e' he' halike =>
      Diagram.edgeLine_eq_of_alike halike (Owner.normal_edges hg e he)
        (Owner.normal_edges hg' e' he')
  exact map_eq_of_forall₂ (fun hline => hline) hlines

/-- **The nodes of the same artifacts** have the same lines, unless they quote uneven texts. -/
lemma Same.forall₂_nodeLine (ha : o.artifact id = .ok a) (hb : o'.artifact id' = .ok b)
    (h : a.Same b) :
    List.Forall₂ (fun n n' => Diagram.nodeLine n = Diagram.nodeLine n' ∨ o.Uneven n ∨ o'.Uneven n')
      a.graph.nodes b.graph.nodes := by
  obtain ⟨g, hg, rfl⟩ := Owner.exists_of_artifact ha
  obtain ⟨g', hg', rfl⟩ := Owner.exists_of_artifact hb
  refine forall₂_imp_of_mem h.2.2.1 fun n hn n' hn' halike => ?_
  by_cases heven : o.Uneven n ∨ o'.Uneven n'
  · exact .inr heven
  · obtain ⟨hn₁, hn₂⟩ := not_or.mp heven
    exact .inl (Diagram.nodeLine_eq_of_alike halike (Owner.even_of_not_uneven hg hn hn₁)
      (Owner.even_of_not_uneven hg' hn' hn₂))

/-- The section of an artifact is determined by its fingerprint, its diagram and its summary. -/
lemma documentSection_eq (hhash : a.hash = b.hash) (hdiagram : a.diagram = b.diagram)
    (hsummary : a.summary = b.summary) : a.documentSection = b.documentSection := by
  rw [documentSection, documentSection, sectionLines, sectionLines, hhash, hdiagram, hsummary]

/-- **The same artifacts have the same diagram**, unless they quote uneven texts. -/
lemma Same.diagram_eq (ha : o.artifact id = .ok a) (hb : o'.artifact id' = .ok b) (h : a.Same b)
    (heven : ∀ n ∈ a.graph.nodes, ¬ o.Uneven n) (heven' : ∀ n ∈ b.graph.nodes, ¬ o'.Uneven n) :
    a.diagram = b.diagram := by
  have hedges := h.map_edgeLine ha hb
  have hlines := forall₂_imp_of_mem (h.forall₂_nodeLine ha hb) fun n hn n' hn' hline =>
    hline.resolve_right fun hor => hor.elim (heven n hn) (heven' n' hn')
  obtain ⟨g, -, rfl⟩ := Owner.exists_of_artifact ha
  obtain ⟨g', -, rfl⟩ := Owner.exists_of_artifact hb
  exact Graph.diagram_eq (map_eq_of_forall₂ (fun hline => hline) hlines) hedges

/-- The same artifacts have the same fingerprint and summary. -/
lemma Same.summary_eq (ha : o.artifact id = .ok a) (hb : o'.artifact id' = .ok b) (h : a.Same b) :
    a.hash = b.hash ∧ a.summary = b.summary := by
  refine ⟨(OfDraft.owner ha).hash_eq_of_same (OfDraft.owner hb) h, ?_⟩
  obtain ⟨g, -, rfl⟩ := Owner.exists_of_artifact ha
  obtain ⟨g', -, rfl⟩ := Owner.exists_of_artifact hb
  exact h.2.2.summary_eq

/-! ## Tags and their layout -/

/-- The contract `{ pre: [() => err({ tag: "…" })], transition: (s) => s }` with a given tag. -/
def taggedContract (tag : String) : Tree :=
  .node ⟨0, "object", true, none, 1, ""⟩ [
    .node ⟨1, "pair", true, none, 1, ""⟩ [
      .node ⟨2, "property_identifier", true, some "key", 1, "pre"⟩ [],
      .node ⟨3, "array", true, some "value", 1, ""⟩ [
        .node ⟨4, "arrow_function", true, none, 1, ""⟩ [
          .node ⟨5, "call_expression", true, some "body", 1, ""⟩ [
            .node ⟨6, "identifier", true, some "function", 1, "err"⟩ [],
            .node ⟨7, "arguments", true, some "arguments", 1, ""⟩ [
              .node ⟨8, "object", true, none, 1, ""⟩ [
                .node ⟨9, "pair", true, none, 1, ""⟩ [
                  .node ⟨10, "property_identifier", true, some "key", 1, "tag"⟩ [],
                  .node ⟨11, "string", true, some "value", 1, "\"" ++ tag ++ "\""⟩ []]]]]]]],
    .node ⟨12, "pair", true, none, 1, "transition: (s) => s"⟩ [
      .node ⟨13, "property_identifier", true, some "key", 1, "transition"⟩ [],
      .node ⟨14, "arrow_function", true, some "value", 1, "(s) => s"⟩ [
        .node ⟨15, "formal_parameters", true, some "parameters", 1, "(s)"⟩ [],
        .node ⟨16, "identifier", true, some "body", 1, "s"⟩ []]]]

/-- What a chart shows of a contract with a tag. -/
def tagged (tag : String) : Contract :=
  ⟨[[tag]], .value "s", 0, 0⟩

section Tagged

variable {tag tag' : String} {g g' : Graph}

/-- The chart of a contract with a tag. -/
lemma draft_tagged (tag : String) : (tagged tag).draft =
    ⟨[⟨.start, "start"⟩, ⟨.finish, "ok"⟩, ⟨.precondition, "pre." ++ toString 1⟩,
        ⟨.error, "error: " ++ tag⟩, ⟨.action, "transition"⟩],
      [⟨nodeId 1, nodeId 3, none⟩, ⟨nodeId 3, nodeId 4, some "fail"⟩,
        ⟨nodeId 3, nodeId 5, some "pass"⟩, ⟨nodeId 5, nodeId 2, some "s"⟩]⟩ :=
  rfl

/-- The nodes in the chart of a contract with a tag. -/
lemma nodes_tagged (hg : (tagged tag).draft.freeze = .ok g) :
    g.nodes = [⟨nodeId 1, .start, "start", 1⟩, ⟨nodeId 2, .finish, "ok", 2⟩,
      ⟨nodeId 3, .precondition, "pre." ++ toString 1, 3⟩, ⟨nodeId 4, .error, "error: " ++ tag, 4⟩,
      ⟨nodeId 5, .action, "transition", 5⟩] := by
  rw [(Draft.freeze_eq_ok hg).1, draft_tagged]
  rfl

/-- Contracts that differ in the layout of a tag have charts that are alike. -/
lemma alike_tagged (hg : (tagged tag).draft.freeze = .ok g)
    (hg' : (tagged tag').draft.freeze = .ok g')
    (htag : Text.normalize ("error: " ++ tag) = Text.normalize ("error: " ++ tag')) :
    g.edges = g'.edges ∧ g.Alike g' := by
  have hsize : (tagged tag).draft.size = (tagged tag').draft.size := by
    rw [draft_tagged, draft_tagged]
    rfl
  have hdrawn : (tagged tag).draft.edges = (tagged tag').draft.edges := by
    rw [draft_tagged, draft_tagged]
  have hedges : g.edges = g'.edges := Draft.edges_freeze_congr hsize hdrawn hg hg'
  refine ⟨hedges, ?_, ?_⟩
  · rw [nodes_tagged hg, nodes_tagged hg']
    exact .cons ⟨rfl, rfl, rfl⟩ (.cons ⟨rfl, rfl, rfl⟩ (.cons ⟨rfl, rfl, rfl⟩
      (.cons ⟨rfl, rfl, htag⟩ (.cons ⟨rfl, rfl, rfl⟩ .nil))))
  · rw [hedges]
    exact List.forall₂_same.mpr fun e _ => ⟨rfl, rfl, rfl⟩

/-- Their diagrams are equal only if the labels of the errors are written alike. -/
lemma escape_eq_of_diagram_eq (hg : (tagged tag).draft.freeze = .ok g)
    (hg' : (tagged tag').draft.freeze = .ok g') (hedges : g.edges = g'.edges)
    (h : g.diagram = g'.diagram) :
    Diagram.escape ("error: " ++ tag) = Diagram.escape ("error: " ++ tag') := by
  have hlines := congrArg String.toList h
  -- the lines before the error are the same, and so is all that stands behind its label
  simp only [Graph.diagram, Graph.diagramLines, nodes_tagged hg, nodes_tagged hg', hedges,
    List.cons_append, List.nil_append, List.map_cons, Text.toList_intercalate, Text.newLines,
    List.flatMap_cons, List.append_assoc, List.append_cancel_left_eq, List.cons.injEq, true_and,
    Diagram.nodeLine, Diagram.brackets, String.toList_append] at hlines
  exact String.toList_inj.mp (List.append_cancel_right hlines)

/-- Artifacts of contracts that differ in the layout of a tag have the same text. -/
lemma exists_tagged (tag tag' : String)
    (hc : Contract.ofObject .blank (taggedContract tag) = tagged tag)
    (hc' : Contract.ofObject .blank (taggedContract tag') = tagged tag')
    (htag : Text.normalize ("error: " ++ tag) = Text.normalize ("error: " ++ tag')) :
    ∃ g g', (tagged tag).draft.freeze = .ok g ∧ (tagged tag').draft.freeze = .ok g' ∧
      (Owner.contract .blank (taggedContract tag)).artifact "c" = .ok (ofGraph .contract "c" g) ∧
      (Owner.contract .blank (taggedContract tag')).artifact "c" = .ok (ofGraph .contract "c" g') ∧
      (ofGraph .contract "c" g).text = (ofGraph .contract "c" g').text := by
  obtain ⟨a, ha⟩ := (Owner.contract .blank (taggedContract tag)).exists_artifact "c"
  obtain ⟨b, hb⟩ := (Owner.contract .blank (taggedContract tag')).exists_artifact "c"
  obtain ⟨g, hg, rfl⟩ := Owner.exists_of_artifact ha
  obtain ⟨g', hg', rfl⟩ := Owner.exists_of_artifact hb
  rw [Owner.draft, hc] at hg
  rw [Owner.draft, hc'] at hg'
  refine ⟨g, g', hg, hg', ha, hb, ?_⟩
  exact ((OfDraft.owner ha).text_eq_iff (OfDraft.owner hb)).mpr
    ⟨rfl, rfl, (alike_tagged hg hg' htag).2⟩

/-- A contract with an evenly spaced tag quotes nothing uneven. -/
lemma not_uneven_tagged {o : Owner} (hg : (tagged tag).draft.freeze = .ok g)
    (htag : Text.EvenlySpaced ("error: " ++ tag)) : ∀ n ∈ g.nodes, ¬ o.Uneven n := by
  have hpre : Text.Solid "pre." := by decide
  have hnumber : Text.EvenlySpaced ("pre." ++ toString 1) :=
    (hpre.append (Text.solid_toString 1)).even
  rintro n hn ⟨-, huneven⟩
  rw [nodes_tagged hg] at hn
  simp only [List.mem_cons, List.not_mem_nil, or_false] at hn
  rcases hn with rfl | rfl | rfl | rfl | rfl
  · exact huneven (by decide : Text.EvenlySpaced "start")
  · exact huneven (by decide : Text.EvenlySpaced "ok")
  · exact huneven hnumber
  · exact huneven htag
  · exact huneven (by decide : Text.EvenlySpaced "transition")

end Tagged

/-! ## Coverage -/

/-- **Fingerprints cover what is documented**, up to the layout of texts that labels quote. For all
artifacts of owners in scripts, if the texts that are hashed for them are equal, then so are their
summaries, the lines of edges in their diagrams, and the lines of nodes but for those that quote an
uneven text. Without such nodes their diagrams and sections are equal. So if nothing is wrong with a
document of artifacts that quote no uneven text, rendering anew gives each of its headings and
sections again, unless the hash function collides.

**Proof sketch.** Artifacts with the same text are the same up to the layout of labels
(`Artifact.OfDraft.text_eq_iff`). Labels of edges are in normal form, and labels of nodes are evenly
spaced unless they quote a text (`Owner.normal_edges`, `Owner.even_or_quotes`), so layout makes no
difference to their lines. -/
theorem fingerprint_covers :
    (∀ (o o' : Owner) (id id' : String) (a b : Artifact), o.artifact id = .ok a →
      o'.artifact id' = .ok b → a.text = b.text →
        a.summary = b.summary ∧
        a.graph.edges.map Diagram.edgeLine = b.graph.edges.map Diagram.edgeLine ∧
        List.Forall₂
          (fun n n' => Diagram.nodeLine n = Diagram.nodeLine n' ∨ o.Uneven n ∨ o'.Uneven n')
          a.graph.nodes b.graph.nodes ∧
        ((∀ n ∈ a.graph.nodes, ¬ o.Uneven n) → (∀ n ∈ b.graph.nodes, ¬ o'.Uneven n) →
          a.diagram = b.diagram ∧ a.documentSection = b.documentSection)) ∧
      ∀ (old new : List Artifact) (title : String), (∀ a ∈ old, a.EvenlyQuoted) →
        (∀ b ∈ new, b.EvenlyQuoted) →
        (∀ a ∈ old, ∀ b ∈ new,
          ¬ Sha256.Collide (Text.Utf8.encode a.text) (Text.Utf8.encode b.text)) →
        (Drift.check new (Document.render title old)).isCurrent = true →
        ∀ a ∈ old, ∃ b ∈ new, b.heading = a.heading ∧ b.documentSection = a.documentSection := by
  have hsection : ∀ (o o' : Owner) (id id' : String) (a b : Artifact), o.artifact id = .ok a →
      o'.artifact id' = .ok b → a.Same b → (∀ n ∈ a.graph.nodes, ¬ o.Uneven n) →
      (∀ n ∈ b.graph.nodes, ¬ o'.Uneven n) →
        a.diagram = b.diagram ∧ a.documentSection = b.documentSection := by
    intro o o' id id' a b ha hb hsame heven heven'
    obtain ⟨hhash, hsummary⟩ := hsame.summary_eq ha hb
    have hdiagram := hsame.diagram_eq ha hb heven heven'
    exact ⟨hdiagram, documentSection_eq hhash hdiagram hsummary⟩
  refine ⟨fun o o' id id' a b ha hb htext => ?_,
    fun old new title hold hnew hcollide hcurrent a ha => ?_⟩
  · have hsame : a.Same b := ((OfDraft.owner ha).text_eq_iff (OfDraft.owner hb)).mp htext
    exact ⟨(hsame.summary_eq ha hb).2, hsame.map_edgeLine ha hb, hsame.forall₂_nodeLine ha hb,
      hsection o o' id id' a b ha hb hsame⟩
  · obtain ⟨o, id, hoa, heven⟩ := hold a ha
    have hrecorded := Document.hash_mem_recorded ha (OfDraft.owner hoa) title
    obtain ⟨b, hb, hhash⟩ := Drift.exists_of_current hcurrent hrecorded
    obtain ⟨o', id', hob, heven'⟩ := hnew b hb
    have hsame : a.Same b :=
      (OfDraft.owner hoa).same_of_hash_eq (OfDraft.owner hob) (hcollide a ha b hb) hhash.symm
    refine ⟨b, hb, ?_, (hsection o o' id id' a b hoa hob hsame heven heven').2.symm⟩
    rw [heading, heading, hsame.1, hsame.2.1]

/-- A blank at the end of a tag makes no difference to a section. -/
theorem fingerprint_covers_of_trailing_blank :
    ∃ a b, ofContract "c" (.ofObject .blank (taggedContract "A B")) = .ok a ∧
      ofContract "c" (.ofObject .blank (taggedContract "A B ")) = .ok b ∧
      a.graph ≠ b.graph ∧ a.diagram = b.diagram ∧ a.documentSection = b.documentSection := by
  obtain ⟨g, g', hg, hg', ha, hb, htext⟩ :=
    exists_tagged "A B" "A B " rfl rfl (by decide)
  refine ⟨_, _, ha, hb, fun heq => ?_, ?_⟩
  · have hnodes : g.nodes = g'.nodes := congrArg Graph.nodes heq
    rw [nodes_tagged hg, nodes_tagged hg'] at hnodes
    simp at hnodes
  · exact (fingerprint_covers.1 _ _ _ _ _ _ ha hb htext).2.2.2
      (not_uneven_tagged hg (by decide)) (not_uneven_tagged hg' (by decide))

/-- **Blanks inside a tag** are shown, but the fingerprint does not cover them. -/
theorem fingerprint_misses_blanks :
    ∃ a b, ofContract "c" (.ofObject .blank (taggedContract "A B")) = .ok a ∧
      ofContract "c" (.ofObject .blank (taggedContract "A  B")) = .ok b ∧
      a.text = b.text ∧ a.diagram ≠ b.diagram := by
  obtain ⟨g, g', hg, hg', ha, hb, htext⟩ :=
    exists_tagged "A B" "A  B" rfl rfl (by decide)
  refine ⟨_, _, ha, hb, htext, fun hdiagram => ?_⟩
  have hedges := (alike_tagged hg hg' (by decide)).1
  exact absurd (escape_eq_of_diagram_eq hg hg' hedges hdiagram) (by decide)

end Artifact

end Flowchart
