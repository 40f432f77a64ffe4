import Flowchart.Proofs.Graph.CanonicalText
import Flowchart.Proofs.Graph.WellFormed
import Flowchart.Proofs.Text.Layout
import Mathlib.Data.List.TakeWhile

set_option relaxedAutoImplicit false
set_option autoImplicit false

/-!
# Diagram texts

What can be read back from the diagram of a graph. It is one block with a line for each node and
each edge, whatever the labels hold, since they are written without line feeds. Labels that are
single lines are read back from between their quotation marks, and the lines of such labels
determine the nodes and edges up to blanks around the labels.

## Main definitions

* `Flowchart.Diagram.readLabel?`: a label up to the quotation mark that closes it, without escapes.
* `Flowchart.Diagram.quoted?`: the label in a line and what stands behind it.
* `Flowchart.Graph.DrawnAlike`: graphs with the same shapes and trimmed labels.

## Main results

* `Flowchart.Diagram.readLabel?_escape`: the first quotation mark without an escape closes a label,
  and without the escapes it is the label.
* `Flowchart.Graph.lines_diagram`: the lines of a diagram.
* `Flowchart.Graph.diagram_faithful`: the block of a diagram, its labels, and when two graphs have
  the same diagram.
-/

namespace Flowchart

/-! ## Lines of a text -/

/-- The lines of a text. -/
def Text.lines (s : String) : List String :=
  (s.toList.splitOn '\n').map String.ofList

/-- Lines that are joined to a text are the lines of the text. -/
lemma Text.lines_intercalate {ls : List String} (hne : ls ≠ []) (h : ∀ l ∈ ls, '\n' ∉ l.toList) :
    Text.lines ("\n".intercalate ls) = ls := by
  have hfeed : "\n".toList = ['\n'] := rfl
  rw [Text.lines, String.toList_intercalate, hfeed, List.splitOn_intercalate, List.map_map]
  · simp
  · simpa using h
  · simpa using hne

/-! ## Graphs that are drawn alike -/

namespace Graph

/-- Nodes with the same identifier, shape and trimmed label. -/
def Node.DrawnAlike (n n' : Node) : Prop :=
  n.id = n'.id ∧ Diagram.brackets n.kind = Diagram.brackets n'.kind ∧
    Text.trim n.label = Text.trim n'.label

/-- Edges with the same endpoints and trimmed label. An absent label is an empty one. -/
def Edge.DrawnAlike (e e' : Edge) : Prop :=
  e.source = e'.source ∧ e.target = e'.target ∧
    Text.trim (e.label.getD "") = Text.trim (e'.label.getD "")

/-- Flow graphs that are drawn alike, node by node and edge by edge. -/
def DrawnAlike (g g' : Graph) : Prop :=
  List.Forall₂ Node.DrawnAlike g.nodes g'.nodes ∧ List.Forall₂ Edge.DrawnAlike g.edges g'.edges

/-- All labels are single lines. -/
def SingleLined (g : Graph) : Prop :=
  (∀ n ∈ g.nodes, '\n' ∉ n.label.toList) ∧ ∀ e ∈ g.edges, '\n' ∉ (e.label.getD "").toList

end Graph

namespace Diagram

open Text (trim)

/-! ## Reading labels -/

/-- A label up to the quotation mark that closes it, and what stands behind the mark. A backslash
takes the next character as it stands. -/
def readLabel? : List Char → Option (List Char × List Char)
  | [] => none
  | '\\' :: c :: rest => (readLabel? rest).map fun (label, behind) => (c :: label, behind)
  | c :: rest =>
    if c = '"' then some ([], rest)
    else (readLabel? rest).map fun (label, behind) => (c :: label, behind)

/-- The label between the quotation marks of a line and what stands behind it. -/
def quoted? (line : String) : Option (String × String) :=
  match line.toList.dropWhile (· ≠ '"') with
  | [] => none
  | _ :: rest => (readLabel? rest).map fun (label, behind) => (.ofList label, .ofList behind)

/-- What is written for the characters of a single line is read as these. -/
lemma readLabel?_flatMap {cs : List Char} (h : '\n' ∉ cs) (behind : List Char) :
    readLabel? (cs.flatMap escapeChar ++ '"' :: behind) = some (cs, behind) := by
  induction cs with
  | nil => rfl
  | cons c cs ih =>
    obtain ⟨hfeed, hrest⟩ := not_or.mp (mt List.mem_cons.mpr h)
    rw [List.flatMap_cons, List.append_assoc]
    by_cases hquote : c = '\\' ∨ c = '"'
    · have hwritten : escapeChar c = ['\\', c] := if_pos hquote
      rw [hwritten, List.cons_append, List.singleton_append, readLabel?, ih hrest]
      rfl
    · have hwritten : escapeChar c = [c] := by
        rw [escapeChar, if_neg hquote, if_neg (Ne.symm hfeed)]
      obtain ⟨hslash, hmark⟩ := not_or.mp hquote
      rw [hwritten, List.singleton_append, readLabel?, if_neg hmark, ih hrest]
      · rfl
      · rintro d rest rfl
        exact absurd rfl hslash

/-- **A label is read back**: the first quotation mark without an escape closes it, and without the
escapes it is the label with the blanks around it left out. -/
lemma readLabel?_escape {label : String} (h : '\n' ∉ label.toList) (behind : List Char) :
    readLabel? ((escape label).toList ++ '"' :: behind) = some ((trim label).toList, behind) := by
  rw [escape, String.toList_ofList, trimBlank_escape h, Text.toList_trim]
  exact readLabel?_flatMap (fun hmem => h (Text.mem_of_mem_trimBlank hmem)) behind

/-- The label of a line is what is read behind the first quotation mark. -/
lemma quoted?_eq {line : String} {lead behind : List Char} {label : String}
    (hline : line.toList = lead ++ '"' :: ((escape label).toList ++ '"' :: behind))
    (hlead : '"' ∉ lead) (hlabel : '\n' ∉ label.toList) :
    quoted? line = some (trim label, .ofList behind) := by
  have hdrop : line.toList.dropWhile (· ≠ '"') =
      '"' :: ((escape label).toList ++ '"' :: behind) := by
    rw [hline, List.dropWhile_append_of_pos]
    · exact List.dropWhile_cons_of_neg (by simp)
    · exact fun c hc => decide_eq_true (ne_of_mem_of_not_mem hc hlead)
  rw [quoted?, hdrop]
  simp only [readLabel?_escape hlabel, Option.map_some, String.ofList_toList]

/-- A label is written as a single line. -/
lemma lineFeed_not_mem_escape (label : String) : '\n' ∉ (escape label).toList := by
  rw [escape, String.toList_ofList]
  intro h
  obtain ⟨c, -, hc⟩ := List.mem_flatMap.mp (Text.mem_of_mem_trimBlank h)
  unfold escapeChar at hc
  split_ifs at hc with hquote hfeed
  · rcases hquote with rfl | rfl <;> exact absurd hc (by decide)
  · exact absurd hc (by decide)
  · exact hfeed (List.mem_singleton.mp hc).symm

/-! ## Lines of nodes and edges -/

/-- The characters of identifiers. -/
def IsIdChar (c : Char) : Prop :=
  c = 'n' ∨ c.isDigit = true

instance (c : Char) : Decidable (IsIdChar c) :=
  inferInstanceAs (Decidable (_ ∨ _))

/-- The opening brackets of a node start with a character that stands in no identifier and is no
space, and no bracket holds a quotation mark. -/
lemma brackets_spec (k : NodeKind) :
    (∃ c cs, (brackets k).1.toList = c :: cs ∧ ¬ IsIdChar c ∧ c ≠ ' ') ∧
      '"' ∉ (brackets k).1.toList ∧ '\n' ∉ (brackets k).1.toList ∧
      '\n' ∉ (brackets k).2.toList := by
  cases k <;> exact ⟨⟨_, _, rfl, by decide, by decide⟩, by decide, by decide, by decide⟩

/-- The characters of the line of a node. -/
lemma toList_nodeLine (n : Graph.Node) :
    (nodeLine n).toList = "  ".toList ++ (n.id.toList ++ ((brackets n.kind).1.toList ++
      '"' :: ((escape n.label).toList ++ '"' :: (brackets n.kind).2.toList))) := by
  simp [nodeLine]

/-- The characters of the line of an edge. -/
lemma toList_edgeLine (e : Graph.Edge) :
    (edgeLine e).toList = "  ".toList ++ (e.source.toList ++ ' ' :: ("-->".toList ++
      ((edgeLabel e.label).toList ++ ' ' :: e.target.toList))) := by
  simp [edgeLine]

/-- The label of an edge is shown between bars, and an empty or absent one is left out. -/
lemma toList_edgeLabel (label : Option String) :
    (edgeLabel label).toList = if label.getD "" = "" then []
      else '|' :: '"' :: ((escape (label.getD "")).toList ++ ['"', '|']) := by
  cases label with
  | none => rfl
  | some text =>
    by_cases htext : text = ""
    · subst htext
      rfl
    · simp [edgeLabel, htext]

/-- An absent label of an edge is shown like an empty one. -/
lemma edgeLabel_eq_of_getD_eq {l l' : Option String} (h : l.getD "" = l'.getD "") :
    edgeLabel l = edgeLabel l' := by
  rw [← String.toList_inj, toList_edgeLabel, toList_edgeLabel, h]

/-- The label of an edge is a single line. -/
lemma lineFeed_not_mem_edgeLabel (label : Option String) : '\n' ∉ (edgeLabel label).toList := by
  rw [toList_edgeLabel]
  split_ifs
  · exact List.not_mem_nil
  · simp [lineFeed_not_mem_escape]

section Lines

variable {n n' : Graph.Node} {e e' : Graph.Edge} {i j k l : ℕ}

/-- The line of a node is a single line. -/
lemma lineFeed_not_mem_nodeLine (hid : n.id = nodeId k) : '\n' ∉ (nodeLine n).toList := by
  obtain ⟨-, -, hopen, hclose⟩ := brackets_spec n.kind
  rw [toList_nodeLine, hid]
  simp [not_mem_nodeId, hopen, hclose, lineFeed_not_mem_escape]

/-- The line of an edge is a single line. -/
lemma lineFeed_not_mem_edgeLine (hsource : e.source = nodeId j) (htarget : e.target = nodeId k) :
    '\n' ∉ (edgeLine e).toList := by
  rw [toList_edgeLine, hsource, htarget]
  simp [not_mem_nodeId, lineFeed_not_mem_edgeLabel]

/-- **The label of a node** stands between the quotation marks of its line. -/
lemma quoted?_nodeLine (hid : n.id = nodeId k) (hlabel : '\n' ∉ n.label.toList) :
    quoted? (nodeLine n) = some (trim n.label, (brackets n.kind).2) := by
  have hquote : '"' ∉ (nodeId k).toList := not_mem_nodeId_of_ne (by decide) (by decide)
  have hline := toList_nodeLine n
  rw [← List.append_assoc, ← List.append_assoc] at hline
  have hread := quoted?_eq hline (by simp [hid, hquote, (brackets_spec n.kind).2.1]) hlabel
  rwa [String.ofList_toList] at hread

/-- **The label of an edge** stands between the quotation marks of its line, and if it is empty or
absent, the line has none. -/
lemma quoted?_edgeLine (hsource : e.source = nodeId j) (htarget : e.target = nodeId k)
    (hlabel : '\n' ∉ (e.label.getD "").toList) :
    quoted? (edgeLine e) = if e.label.getD "" = "" then none
      else some (trim (e.label.getD ""), "| " ++ e.target) := by
  have hquote : ∀ k, '"' ∉ (nodeId k).toList := fun k =>
    not_mem_nodeId_of_ne (by decide) (by decide)
  have hline := toList_edgeLine e
  rw [toList_edgeLabel] at hline
  split_ifs at hline ⊢ with hempty
  · have hnone : (edgeLine e).toList.dropWhile (· ≠ '"') = [] := by
      rw [List.dropWhile_eq_nil_iff, hline]
      intro c hc
      refine decide_eq_true (ne_of_mem_of_not_mem hc ?_)
      simp [hsource, htarget, hquote]
    rw [quoted?, hnone]
  · have hshape : (edgeLine e).toList = ("  ".toList ++ (e.source.toList ++ " -->|".toList)) ++
        '"' :: ((escape (e.label.getD "")).toList ++ '"' :: ("| " ++ e.target).toList) := by
      rw [hline]
      simp
    have hread := quoted?_eq hshape (by simp [hsource, hquote]) hlabel
    rwa [String.ofList_toList] at hread

/-- **The line of a node** determines its identifier, its shape and its trimmed label. -/
lemma drawnAlike_of_nodeLine (hid : n.id = nodeId j) (hid' : n'.id = nodeId k)
    (hlabel : '\n' ∉ n.label.toList) (hlabel' : '\n' ∉ n'.label.toList)
    (h : nodeLine n = nodeLine n') : n.DrawnAlike n' := by
  have hlist := congrArg String.toList h
  obtain ⟨⟨c, cs, hopen, hc, -⟩, hquote, -, -⟩ := brackets_spec n.kind
  obtain ⟨⟨c', cs', hopen', hc', -⟩, hquote', -, -⟩ := brackets_spec n'.kind
  rw [toList_nodeLine, toList_nodeLine, hid, hid', hopen, hopen'] at hlist
  rw [hopen] at hquote
  rw [hopen'] at hquote'
  obtain ⟨hsame, rfl, hrest⟩ := Text.split_end (p := IsIdChar) (fun _ => mem_nodeId)
    (fun _ => mem_nodeId) hc hc' (List.append_cancel_left hlist)
  obtain ⟨rfl, htail⟩ := Text.split_first (fun hmem => hquote (List.mem_cons_of_mem _ hmem))
    (fun hmem => hquote' (List.mem_cons_of_mem _ hmem)) hrest
  have hread := congrArg readLabel? htail
  rw [readLabel?_escape hlabel, readLabel?_escape hlabel', Option.some.injEq, Prod.mk.injEq]
    at hread
  refine ⟨?_, Prod.ext ?_ (String.toList_inj.mp hread.2), String.toList_inj.mp hread.1⟩
  · rw [hid, hid', String.toList_inj.mp hsame]
  · rw [← String.toList_inj, hopen, hopen']

/-- The label in the line of an edge determines the trimmed label. -/
lemma trim_eq_of_edgeLabel {l l' : Option String} (hlabel : '\n' ∉ (l.getD "").toList)
    (hlabel' : '\n' ∉ (l'.getD "").toList) (h : (edgeLabel l).toList = (edgeLabel l').toList) :
    trim (l.getD "") = trim (l'.getD "") := by
  rw [toList_edgeLabel, toList_edgeLabel] at h
  split_ifs at h with hempty hempty'
  · rw [hempty, hempty']
  · have hread := congrArg readLabel? (List.cons.inj (List.cons.inj h).2).2
    rw [readLabel?_escape hlabel, readLabel?_escape hlabel', Option.some.injEq, Prod.mk.injEq]
      at hread
    exact String.toList_inj.mp hread.1

/-- **The line of an edge** determines its endpoints and its trimmed label. -/
lemma drawnAlike_of_edgeLine {i' j' : ℕ} (hends : e.source = nodeId i ∧ e.target = nodeId j)
    (hends' : e'.source = nodeId i' ∧ e'.target = nodeId j')
    (hlabel : '\n' ∉ (e.label.getD "").toList) (hlabel' : '\n' ∉ (e'.label.getD "").toList)
    (h : edgeLine e = edgeLine e') : e.DrawnAlike e' := by
  have hspace : ∀ k, ' ' ∉ (nodeId k).toList := fun k =>
    not_mem_nodeId_of_ne (by decide) (by decide)
  have hlist := congrArg String.toList h
  rw [toList_edgeLine, toList_edgeLine] at hlist
  obtain ⟨hsource, hrest⟩ := Text.split_first (hends.1 ▸ hspace i) (hends'.1 ▸ hspace i')
    (List.append_cancel_left hlist)
  obtain ⟨hshown, htarget⟩ := Text.split_last (hends.2 ▸ hspace j) (hends'.2 ▸ hspace j')
    (List.append_cancel_left hrest)
  exact ⟨String.toList_inj.mp hsource, String.toList_inj.mp htarget,
    trim_eq_of_edgeLabel hlabel hlabel' hshown⟩

/-- A line in which a space follows an identifier. -/
def IsEdgeLine (line : String) : Prop :=
  ∃ k rest, line.toList = "  ".toList ++ ((nodeId k).toList ++ ' ' :: rest)

lemma isEdgeLine_edgeLine (hsource : e.source = nodeId j) : IsEdgeLine (edgeLine e) :=
  ⟨j, _, by rw [toList_edgeLine, hsource]⟩

/-- In the line of a node a bracket follows the identifier. -/
lemma not_isEdgeLine_nodeLine (hid : n.id = nodeId j) : ¬ IsEdgeLine (nodeLine n) := by
  rintro ⟨k, rest, hline⟩
  obtain ⟨⟨c, cs, hopen, hc, hspace⟩, -⟩ := brackets_spec n.kind
  rw [toList_nodeLine, hid, hopen] at hline
  obtain ⟨-, rfl, -⟩ := Text.split_end (p := IsIdChar) (fun _ => mem_nodeId) (fun _ => mem_nodeId)
    hc (by decide) (List.append_cancel_left hline)
  exact hspace rfl

/-- A line that starts with two spaces and an identifier, which another character follows. -/
def StartsWith (line id : String) : Prop :=
  ∃ c rest, line.toList = "  ".toList ++ (id.toList ++ c :: rest) ∧ ¬ IsIdChar c

lemma startsWith_nodeLine (n : Graph.Node) : StartsWith (nodeLine n) n.id := by
  obtain ⟨⟨c, cs, hopen, hc, -⟩, -⟩ := brackets_spec n.kind
  exact ⟨c, _, by rw [toList_nodeLine, hopen]; rfl, hc⟩

lemma startsWith_edgeLine (e : Graph.Edge) : StartsWith (edgeLine e) e.source :=
  ⟨' ', _, toList_edgeLine e, by decide⟩

/-- A line that opens or closes a fenced block: backticks, possibly behind spaces. -/
def IsFence (line : String) : Prop :=
  "```".toList <+: line.toList.dropWhile (· = ' ')

instance (line : String) : Decidable (IsFence line) :=
  inferInstanceAs (Decidable (_ <+: _))

/-- A line that starts with an identifier is no fence. -/
lemma StartsWith.not_isFence {line : String} (h : StartsWith line (nodeId k)) : ¬ IsFence line := by
  obtain ⟨c, rest, hline, -⟩ := h
  have hdrop : line.toList.dropWhile (· = ' ') =
      'n' :: (Nat.toDigits 10 k ++ c :: rest) := by
    rw [hline, toList_nodeId]
    rfl
  rw [IsFence, hdrop]
  intro hfence
  exact absurd (List.cons_prefix_cons.mp hfence).1 (by decide)

end Lines

end Diagram

/-! ## Diagrams -/

namespace Graph

open Diagram

variable {g g' : Graph}

/-- The identifier of a node names a place. -/
lemma WellFormed.exists_nodeId (h : g.WellFormed) {n : Node} (hn : n ∈ g.nodes) :
    ∃ k, n.id = nodeId k := by
  obtain ⟨i, hi⟩ := List.mem_iff_getElem?.mp hn
  exact ⟨i + 1, h.id_eq i n hi⟩

/-- The endpoints of an edge name places. -/
lemma WellFormed.exists_nodeIds (h : g.WellFormed) {e : Edge} (he : e ∈ g.edges) :
    ∃ j k, e.source = nodeId j ∧ e.target = nodeId k := by
  obtain ⟨⟨n, hn, hsource⟩, n', hn', htarget⟩ := h.joins e he
  obtain ⟨j, hj⟩ := h.exists_nodeId hn
  obtain ⟨k, hk⟩ := h.exists_nodeId hn'
  exact ⟨j, k, hsource ▸ hj, htarget ▸ hk⟩

/-- A diagram is determined by the lines of its nodes and its edges. -/
lemma diagram_eq (hnodes : g.nodes.map nodeLine = g'.nodes.map nodeLine)
    (hedges : g.edges.map edgeLine = g'.edges.map edgeLine) : g.diagram = g'.diagram := by
  rw [diagram, diagram, diagramLines, diagramLines, hnodes, hedges]

/-- **The lines of a diagram** are those that it is joined from, whatever the labels hold. -/
lemma lines_diagram (h : g.WellFormed) : Text.lines g.diagram = g.diagramLines := by
  refine Text.lines_intercalate (by simp [diagramLines]) ?_
  simp only [diagramLines, List.forall_mem_append, List.forall_mem_cons, List.forall_mem_map]
  refine ⟨⟨⟨⟨by decide, by decide, fun _ hl => absurd hl List.not_mem_nil⟩, fun n hn => ?_⟩,
    fun e he => ?_⟩, by decide, fun _ hl => absurd hl List.not_mem_nil⟩
  · obtain ⟨k, hk⟩ := h.exists_nodeId hn
    exact lineFeed_not_mem_nodeLine hk
  · obtain ⟨j, k, hj, hk⟩ := h.exists_nodeIds he
    exact lineFeed_not_mem_edgeLine hj hk

/-- Every line of a node or an edge starts with the identifier of a node. -/
lemma WellFormed.exists_startsWith (h : g.WellFormed) :
    ∀ line ∈ g.nodes.map nodeLine ++ g.edges.map edgeLine,
      ∃ n ∈ g.nodes, StartsWith line n.id := by
  intro line hline
  rcases List.mem_append.mp hline with hline | hline
  · obtain ⟨n, hn, rfl⟩ := List.mem_map.mp hline
    exact ⟨n, hn, startsWith_nodeLine n⟩
  · obtain ⟨e, he, rfl⟩ := List.mem_map.mp hline
    obtain ⟨⟨n, hn, hid⟩, -⟩ := h.joins e he
    exact ⟨n, hn, hid ▸ startsWith_edgeLine e⟩

/-- **Graphs with the same diagram** are drawn alike, if their labels are single lines.

**Proof sketch.** The lines of the diagrams are the same. What follows the first identifier of a
line tells the lines of edges from those of nodes, and each line can be read back. -/
lemma drawnAlike_of_diagram (h : g.WellFormed) (h' : g'.WellFormed) (hlabels : g.SingleLined)
    (hlabels' : g'.SingleLined) (hdiagram : g.diagram = g'.diagram) : g.DrawnAlike g' := by
  have hnode : ∀ {g : Graph}, g.WellFormed → ∀ l ∈ g.nodes.map nodeLine, ¬ IsEdgeLine l := by
    intro g h l hl
    obtain ⟨n, hn, rfl⟩ := List.mem_map.mp hl
    obtain ⟨k, hk⟩ := h.exists_nodeId hn
    exact not_isEdgeLine_nodeLine hk
  have hedge : ∀ {g : Graph}, g.WellFormed → ∀ l ∈ g.edges.map edgeLine, ¬¬ IsEdgeLine l := by
    intro g h l hl
    obtain ⟨e, he, rfl⟩ := List.mem_map.mp hl
    obtain ⟨j, k, hj, -⟩ := h.exists_nodeIds he
    exact not_not.mpr (isEdgeLine_edgeLine hj)
  have hlines : g.diagramLines = g'.diagramLines := by
    rw [← lines_diagram h, ← lines_diagram h', hdiagram]
  rw [diagramLines, diagramLines, List.append_assoc _ (g.nodes.map _),
    List.append_assoc _ (g'.nodes.map _)] at hlines
  have hbody := List.append_cancel_left (List.append_cancel_right hlines)
  obtain ⟨hnodes, hedges⟩ := Text.split_sorts (hnode h) (hnode h') (hedge h) (hedge h') hbody
  refine ⟨forall₂_of_map_eq (fun n hn n' hn' heq => ?_) hnodes,
    forall₂_of_map_eq (fun e he e' he' heq => ?_) hedges⟩
  · obtain ⟨j, hj⟩ := h.exists_nodeId hn
    obtain ⟨k, hk⟩ := h'.exists_nodeId hn'
    exact drawnAlike_of_nodeLine hj hk (hlabels.1 n hn) (hlabels'.1 n' hn') heq
  · obtain ⟨i, j, hends⟩ := h.exists_nodeIds he
    obtain ⟨i', j', hends'⟩ := h'.exists_nodeIds he'
    exact drawnAlike_of_edgeLine hends hends' (hlabels.2 e he) (hlabels'.2 e' he') heq

/-- **Diagrams are faithful.** The diagram of every graph of a draft is one block: it has three
lines more than there are nodes and edges, only the first and the last are fences, and between the
second and the last every line starts with two spaces and the identifier of a node, whatever the
labels hold. A label that is a single line is read back from its line: the first quotation mark
without an escape closes it, and without the escapes it is the label with the blanks around it left
out. So two such graphs have the same diagram only if they are drawn alike. -/
theorem diagram_faithful {d : Draft} (hg : d.freeze = .ok g) :
    (Text.lines g.diagram =
        opening :: "flowchart TD" :: (g.nodes.map nodeLine ++ g.edges.map edgeLine ++ [closing]) ∧
      (Text.lines g.diagram).length = 3 + g.nodes.length + g.edges.length ∧
      IsFence opening ∧ IsFence closing ∧
      (∀ line ∈ "flowchart TD" :: (g.nodes.map nodeLine ++ g.edges.map edgeLine),
        ¬ IsFence line) ∧
      ∀ line ∈ g.nodes.map nodeLine ++ g.edges.map edgeLine,
        ∃ n ∈ g.nodes, StartsWith line n.id) ∧
    (∀ n ∈ g.nodes, '\n' ∉ n.label.toList →
      quoted? (nodeLine n) = some (Text.trim n.label, (brackets n.kind).2)) ∧
    (∀ e ∈ g.edges, '\n' ∉ (e.label.getD "").toList →
      quoted? (edgeLine e) = if e.label.getD "" = "" then none
        else some (Text.trim (e.label.getD ""), "| " ++ e.target)) ∧
    ∀ (d' : Draft) (g' : Graph), d'.freeze = .ok g' → g.SingleLined → g'.SingleLined →
      g.diagram = g'.diagram → g.DrawnAlike g' := by
  have hwell := Draft.wellFormed_of_freeze hg
  have hlines : Text.lines g.diagram =
      opening :: "flowchart TD" :: (g.nodes.map nodeLine ++ g.edges.map edgeLine ++ [closing]) := by
    rw [lines_diagram hwell, diagramLines]
    simp
  have hstart := hwell.exists_startsWith
  refine ⟨⟨hlines, ?_, by decide, by decide, ?_, hstart⟩, fun n hn hlabel => ?_,
    fun e he hlabel => ?_, fun d' g' hg' hlabels hlabels' =>
      drawnAlike_of_diagram hwell (Draft.wellFormed_of_freeze hg') hlabels hlabels'⟩
  · rw [hlines]
    simp only [List.length_cons, List.length_append, List.length_map, List.length_nil]
    omega
  · refine List.forall_mem_cons.mpr ⟨by decide, fun line hline => ?_⟩
    obtain ⟨n, hn, hn'⟩ := hstart line hline
    obtain ⟨k, hk⟩ := hwell.exists_nodeId hn
    exact (hk ▸ hn').not_isFence
  · obtain ⟨k, hk⟩ := hwell.exists_nodeId hn
    exact quoted?_nodeLine hk hlabel
  · obtain ⟨j, k, hj, hk⟩ := hwell.exists_nodeIds he
    exact quoted?_edgeLine hj hk hlabel

/-- A graph that consists of one action. -/
def single (label : String) : Graph :=
  ⟨[⟨"n1", .action, label, 1⟩], []⟩

lemma freeze_single (label : String) :
    (⟨[⟨.action, label⟩], []⟩ : Draft).freeze = .ok (single label) := by
  simp [Draft.freeze, Draft.nodes, nodeId, single]
  rfl

/-- A label that holds a quotation mark and a bracket and ends in a backslash is read back from its
line, and a blank behind it is all that its diagram does not show. -/
theorem diagram_faithful_of_marks :
    Diagram.quoted? "  n1[\"\\\"]\\\\\"]" = some ("\"]\\", "]") ∧
      (single "\"]\\ ").DrawnAlike (single "\"]\\") := by
  obtain ⟨-, hnodes, -, hinj⟩ := diagram_faithful (freeze_single "\"]\\ ")
  have hlined : ∀ label : String, '\n' ∉ label.toList → (single label).SingleLined :=
    fun label hlabel => ⟨by simpa [single] using hlabel, by simp [single]⟩
  exact ⟨hnodes _ List.mem_cons_self (by decide), hinj _ _ (freeze_single "\"]\\")
    (hlined _ (by decide)) (hlined _ (by decide)) (by decide)⟩

end Graph

end Flowchart
