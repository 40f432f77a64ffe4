import Flowchart.Graph.Fingerprint
import Flowchart.Proofs.Graph.Frozen
import Flowchart.Proofs.Text.Lines
import Mathlib.Data.List.Forall2

set_option relaxedAutoImplicit false
set_option autoImplicit false

/-!
# Canonical texts

The text that is hashed for a flow graph spells out the graph and its owner, and nothing else can be
read from it: the separators are not escaped, but identifiers and kinds do not hold them, labels are
single lines, and the line of the first node tells where the name of the owner ends.

## Main definitions

* `Flowchart.Graph.Alike`: flow graphs that differ in the layout of labels only.

## Main results

* `Flowchart.Graph.canonicalText_eq_iff`: canonical texts are equal for the same owner and graphs
  that are alike, and for no others.
* `Flowchart.Graph.fingerprint_exact`: the same for fingerprints, unless the hash function collides.
-/

namespace Flowchart

namespace Graph

/-! ## Alike graphs -/

/-- Nodes that differ in the layout of their labels only. -/
def Node.Alike (n n' : Node) : Prop :=
  n.id = n'.id ∧ n.kind = n'.kind ∧ Text.normalize n.label = Text.normalize n'.label

/-- Edges that differ in the layout of their labels only. An absent label is an empty one. -/
def Edge.Alike (e e' : Edge) : Prop :=
  e.source = e'.source ∧ e.target = e'.target ∧
    Text.normalize (e.label.getD "") = Text.normalize (e'.label.getD "")

/-- Flow graphs that are alike, node by node and edge by edge. -/
def Alike (g g' : Graph) : Prop :=
  List.Forall₂ Node.Alike g.nodes g'.nodes ∧ List.Forall₂ Edge.Alike g.edges g'.edges

end Graph

section Pointwise

variable {α β : Type} {f : α → β} {r : α → α → Prop} {l l' : List α}

/-- Rows with equal images are related where equal images are. -/
lemma forall₂_of_map_eq (h : ∀ x ∈ l, ∀ y ∈ l', f x = f y → r x y) (hmap : l.map f = l'.map f) :
    List.Forall₂ r l l' := by
  induction l generalizing l' with
  | nil =>
    cases l' with
    | nil => exact .nil
    | cons y l' => cases hmap
  | cons x l ih =>
    cases l' with
    | nil => cases hmap
    | cons y l' =>
      obtain ⟨hxy, hrest⟩ := List.cons.inj hmap
      exact .cons (h x List.mem_cons_self y List.mem_cons_self hxy)
        (ih (fun x hx y hy => h x (List.mem_cons_of_mem _ hx) y (List.mem_cons_of_mem _ hy)) hrest)

/-- Related rows are also related by what follows for their members. -/
lemma forall₂_imp_of_mem {s : α → α → Prop} (h : List.Forall₂ r l l')
    (himp : ∀ x ∈ l, ∀ y ∈ l', r x y → s x y) : List.Forall₂ s l l' := by
  obtain ⟨hlength, hpairs⟩ := List.forall₂_iff_zip.mp h
  refine List.forall₂_iff_zip.mpr ⟨hlength, fun {x y} hmem => ?_⟩
  obtain ⟨hx, hy⟩ := List.of_mem_zip hmem
  exact himp x hx y hy (hpairs hmem)

/-- Rows that are related have equal images if related members have. -/
lemma map_eq_of_forall₂ (h : ∀ {x y}, r x y → f x = f y) (hall : List.Forall₂ r l l') :
    l.map f = l'.map f := by
  induction hall with
  | nil => rfl
  | cons hxy _ ih => rw [List.map_cons, List.map_cons, h hxy, ih]

end Pointwise

/-! ## Characters of identifiers and kinds -/

/-- Identifiers consist of the letter `n` and digits. -/
lemma mem_nodeId {c : Char} {k : ℕ} (h : c ∈ (nodeId k).toList) : c = 'n' ∨ c.isDigit = true := by
  rw [toList_nodeId] at h
  rcases List.mem_cons.mp h with rfl | h
  · exact .inl rfl
  · exact .inr (Nat.isDigit_of_mem_toDigits (by decide) (by decide) h)

/-- No other character stands in an identifier. -/
lemma not_mem_nodeId_of_ne {c : Char} (hletter : c ≠ 'n') (hdigit : c.isDigit ≠ true) {k : ℕ} :
    c ∉ (nodeId k).toList :=
  fun h => (mem_nodeId h).elim hletter hdigit

/-- The characters with a meaning in canonical texts stand in no identifier. -/
lemma not_mem_nodeId {k : ℕ} :
    '\n' ∉ (nodeId k).toList ∧ '|' ∉ (nodeId k).toList ∧ '-' ∉ (nodeId k).toList :=
  ⟨not_mem_nodeId_of_ne (by decide) (by decide), not_mem_nodeId_of_ne (by decide) (by decide),
    not_mem_nodeId_of_ne (by decide) (by decide)⟩

/-- The characters with a meaning in canonical texts stand in no kind. -/
lemma NodeKind.not_mem_name (k : NodeKind) : '\n' ∉ k.name.toList ∧ '|' ∉ k.name.toList := by
  cases k <;> decide

/-- Kinds of nodes have different names. -/
lemma NodeKind.name_inj {k k' : NodeKind} (h : k.name = k'.name) : k = k' := by
  have hread := congrArg NodeKind.ofName h
  rw [NodeKind.ofName_name, NodeKind.ofName_name] at hread
  exact Except.ok.inj hread

namespace Graph

/-! ## Lines of canonical texts -/

/-- The characters of the line of a node. -/
lemma Node.toList_canonicalLine (n : Node) :
    n.canonicalLine.toList = "node:".toList ++ (n.id.toList ++
      '|' :: (n.kind.name.toList ++ '|' :: (Text.normalize n.label).toList)) := by
  simp [Node.canonicalLine]

/-- The characters of the line of an edge. -/
lemma Edge.toList_canonicalLine (e : Edge) :
    e.canonicalLine.toList = "edge:".toList ++ (e.source.toList ++
      '-' :: '>' :: (e.target.toList ++ '|' :: (Text.normalize (e.label.getD "")).toList)) := by
  simp [Edge.canonicalLine]

/-- The characters of the line of an owner. -/
lemma toList_ownerLine (kind : OwnerKind) (id : String) :
    (ownerLine kind id).toList = "owner:".toList ++ (kind.name.toList ++ ':' :: id.toList) := by
  simp [ownerLine]

/-- **The line of an owner** determines the owner. -/
lemma ownerLine_inj {k k' : OwnerKind} {o o' : String}
    (h : (ownerLine k o).toList = (ownerLine k' o').toList) : k = k' ∧ o = o' := by
  rw [toList_ownerLine, toList_ownerLine] at h
  have hname : ∀ k : OwnerKind, ':' ∉ k.name.toList := by
    intro k
    cases k <;> decide
  obtain ⟨hk, ho⟩ := Text.split_first (hname k) (hname k') (List.append_cancel_left h)
  have hread := congrArg OwnerKind.ofName (String.toList_inj.mp hk)
  rw [OwnerKind.ofName_name, OwnerKind.ofName_name] at hread
  exact ⟨Except.ok.inj hread, String.toList_inj.mp ho⟩

/-- **The line of a node** determines the node up to the layout of its label. -/
lemma Node.alike_of_canonicalLine {n n' : Node} (hn : '|' ∉ n.id.toList) (hn' : '|' ∉ n'.id.toList)
    (h : n.canonicalLine = n'.canonicalLine) : n.Alike n' := by
  have hlist := congrArg String.toList h
  rw [toList_canonicalLine, toList_canonicalLine] at hlist
  obtain ⟨hid, hrest⟩ := Text.split_first hn hn' (List.append_cancel_left hlist)
  obtain ⟨hkind, hlabel⟩ :=
    Text.split_first n.kind.not_mem_name.2 n'.kind.not_mem_name.2 hrest
  exact ⟨String.toList_inj.mp hid, NodeKind.name_inj (String.toList_inj.mp hkind),
    String.toList_inj.mp hlabel⟩

/-- **The line of an edge** determines the edge up to the layout of its label. -/
lemma Edge.alike_of_canonicalLine {e e' : Edge}
    (he : '-' ∉ e.source.toList ∧ '|' ∉ e.target.toList)
    (he' : '-' ∉ e'.source.toList ∧ '|' ∉ e'.target.toList)
    (h : e.canonicalLine = e'.canonicalLine) : e.Alike e' := by
  have hlist := congrArg String.toList h
  rw [toList_canonicalLine, toList_canonicalLine] at hlist
  obtain ⟨hsource, hrest⟩ := Text.split_first he.1 he'.1 (List.append_cancel_left hlist)
  obtain ⟨htarget, hlabel⟩ := Text.split_first he.2 he'.2 (List.cons.inj hrest).2
  exact ⟨String.toList_inj.mp hsource, String.toList_inj.mp htarget, String.toList_inj.mp hlabel⟩

/-- Nodes that are alike have the same line. -/
lemma Node.Alike.canonicalLine_eq {n n' : Node} (h : n.Alike n') :
    n.canonicalLine = n'.canonicalLine := by
  obtain ⟨hid, hkind, hlabel⟩ := h
  rw [canonicalLine, canonicalLine, hid, hkind, hlabel]

/-- Edges that are alike have the same line. -/
lemma Edge.Alike.canonicalLine_eq {e e' : Edge} (h : e.Alike e') :
    e.canonicalLine = e'.canonicalLine := by
  obtain ⟨hsource, htarget, hlabel⟩ := h
  rw [canonicalLine, canonicalLine, hsource, htarget, hlabel]

/-! ## Reading canonical texts -/

/-- The line of a node. -/
def IsNodeLine (l : List Char) : Prop :=
  ∃ rest, l = 'n' :: rest

/-- The line of the first node. -/
def IsFirstLine (l : List Char) : Prop :=
  ∃ rest, l = "node:".toList ++ ((nodeId 1).toList ++ '|' :: rest)

/-- The characters of the lines behind the owner. -/
def bodyLines (g : Graph) : List (List Char) :=
  g.nodes.map (fun n => n.canonicalLine.toList) ++ g.edges.map fun e => e.canonicalLine.toList

/-- A canonical text is the line of the owner and then the other lines. -/
lemma toList_canonicalText (kind : OwnerKind) (id : String) (g : Graph) :
    (canonicalText kind id g).toList = (ownerLine kind id).toList ++ Text.newLines g.bodyLines := by
  rw [canonicalText, List.cons_append, Text.toList_intercalate, bodyLines, List.map_append,
    List.map_map, List.map_map]
  rfl

/-- What canonical texts rely on: the identifiers of nodes and edges are those of places, and only
the first node has the first one. -/
structure Numbered (g : Graph) : Prop where
  node : ∀ n ∈ g.nodes, ∃ k, n.id = nodeId k
  edge : ∀ e ∈ g.edges, ∃ j k, e.source = nodeId j ∧ e.target = nodeId k
  first : ∃ n rest, g.nodes = n :: rest ∧ n.id = nodeId 1 ∧ ∀ n' ∈ rest, n'.id ≠ nodeId 1

namespace Numbered

variable {g g' : Graph} {k k' : OwnerKind} {o o' : String}

/-- Every line behind the owner is a single line. -/
lemma lineFeed_not_mem (h : g.Numbered) : ∀ l ∈ g.bodyLines, '\n' ∉ l := by
  intro l hl
  rcases List.mem_append.mp hl with hl | hl
  · obtain ⟨n, hn, rfl⟩ := List.mem_map.mp hl
    obtain ⟨i, hid⟩ := h.node n hn
    rw [Node.toList_canonicalLine, hid]
    simp [not_mem_nodeId, NodeKind.not_mem_name, Text.lineFeed_not_mem_normalize,
      -Text.toList_normalize]
  · obtain ⟨e, he, rfl⟩ := List.mem_map.mp hl
    obtain ⟨i, j, hsource, htarget⟩ := h.edge e he
    rw [Edge.toList_canonicalLine, hsource, htarget]
    simp [not_mem_nodeId, Text.lineFeed_not_mem_normalize, -Text.toList_normalize]

/-- The lines behind the owner are the line of the first node and lines of other kinds. -/
lemma exists_first (h : g.Numbered) : ∃ m ls, g.bodyLines = m :: ls ∧ IsFirstLine m ∧
    ∀ l ∈ ls, ¬ IsFirstLine l := by
  obtain ⟨n, rest, hnodes, hid, hrest⟩ := h.first
  refine ⟨n.canonicalLine.toList, rest.map (fun n => n.canonicalLine.toList) ++
    g.edges.map fun e => e.canonicalLine.toList, by rw [bodyLines, hnodes]; rfl, ?_, ?_⟩
  · exact ⟨_, by rw [Node.toList_canonicalLine, hid]⟩
  · rintro l hl ⟨tail, htail⟩
    rcases List.mem_append.mp hl with hl | hl
    · obtain ⟨n', hn', rfl⟩ := List.mem_map.mp hl
      obtain ⟨i, hi⟩ := h.node n' (hnodes ▸ List.mem_cons_of_mem _ hn')
      rw [Node.toList_canonicalLine] at htail
      have hbar : '|' ∉ n'.id.toList := hi ▸ not_mem_nodeId.2.1
      have hsame := (Text.split_first hbar not_mem_nodeId.2.1 (List.append_cancel_left htail)).1
      exact hrest n' hn' (String.toList_inj.mp hsame)
    · obtain ⟨e, -, rfl⟩ := List.mem_map.mp hl
      rw [Edge.toList_canonicalLine] at htail
      exact absurd (List.cons.inj htail).1 (by decide)

/-- The lines behind the owner determine the graph up to the layout of its labels. -/
lemma alike_of_bodyLines (h : g.Numbered) (h' : g'.Numbered) (hlines : g.bodyLines = g'.bodyLines) :
    g.Alike g' := by
  have hnode : ∀ g : Graph, ∀ l ∈ g.nodes.map fun n => n.canonicalLine.toList,
      IsNodeLine l := by
    intro g l hl
    obtain ⟨n, -, rfl⟩ := List.mem_map.mp hl
    exact ⟨_, by rw [Node.toList_canonicalLine]; rfl⟩
  have hedge : ∀ g : Graph, ∀ l ∈ g.edges.map fun e => e.canonicalLine.toList,
      ¬ IsNodeLine l := by
    rintro g l hl ⟨rest, hrest⟩
    obtain ⟨e, -, rfl⟩ := List.mem_map.mp hl
    rw [Edge.toList_canonicalLine] at hrest
    exact absurd (List.cons.inj hrest).1 (by decide)
  obtain ⟨hnodes, hedges⟩ := Text.split_sorts (hnode g) (hnode g') (hedge g) (hedge g') hlines
  refine ⟨forall₂_of_map_eq (fun n hn n' hn' heq => ?_) hnodes,
    forall₂_of_map_eq (fun e he e' he' heq => ?_) hedges⟩
  · obtain ⟨i, hi⟩ := h.node n hn
    obtain ⟨j, hj⟩ := h'.node n' hn'
    exact Node.alike_of_canonicalLine (hi ▸ not_mem_nodeId.2.1) (hj ▸ not_mem_nodeId.2.1)
      (String.toList_inj.mp heq)
  · obtain ⟨i, j, hi, hj⟩ := h.edge e he
    obtain ⟨i', j', hi', hj'⟩ := h'.edge e' he'
    exact Edge.alike_of_canonicalLine ⟨hi ▸ not_mem_nodeId.2.2, hj ▸ not_mem_nodeId.2.1⟩
      ⟨hi' ▸ not_mem_nodeId.2.2, hj' ▸ not_mem_nodeId.2.1⟩ (String.toList_inj.mp heq)

/-- **Canonical texts are exact**: they are equal for the same owner and graphs that are alike, and
for no others.

**Proof sketch.** The last line of a first node in a text tells where the line of the owner ends
(`Text.newLines_inj`), whatever the name of the owner holds. The other lines can be read back one by
one. -/
theorem canonicalText_eq_iff (h : g.Numbered) (h' : g'.Numbered) :
    canonicalText k o g = canonicalText k' o' g' ↔ k = k' ∧ o = o' ∧ g.Alike g' := by
  constructor
  · intro heq
    have hlist := congrArg String.toList heq
    rw [toList_canonicalText, toList_canonicalText] at hlist
    obtain ⟨m, ls, hbody, hm, hls⟩ := h.exists_first
    obtain ⟨m', ls', hbody', hm', hls'⟩ := h'.exists_first
    have hfeed := h.lineFeed_not_mem
    have hfeed' := h'.lineFeed_not_mem
    rw [hbody] at hlist hfeed
    rw [hbody'] at hlist hfeed'
    obtain ⟨howner, rfl, rfl⟩ := Text.newLines_inj hfeed hfeed' hm hm' hls hls' hlist
    obtain ⟨rfl, rfl⟩ := ownerLine_inj howner
    exact ⟨rfl, rfl, h.alike_of_bodyLines h' (hbody.trans hbody'.symm)⟩
  · rintro ⟨rfl, rfl, hnodes, hedges⟩
    have hnodeLines : g.nodes.map Node.canonicalLine = g'.nodes.map Node.canonicalLine :=
      map_eq_of_forall₂ (fun h => h.canonicalLine_eq) hnodes
    have hedgeLines : g.edges.map Edge.canonicalLine = g'.edges.map Edge.canonicalLine :=
      map_eq_of_forall₂ (fun h => h.canonicalLine_eq) hedges
    rw [canonicalText, canonicalText, hnodeLines, hedgeLines]

end Numbered

end Graph

/-! ## Frozen drafts -/

/-- **A frozen draft is numbered**, if it has a node. -/
lemma Draft.numbered_of_freeze {d : Draft} {g : Graph} (h : d.freeze = .ok g) (hne : g.nodes ≠ []) :
    g.Numbered := by
  obtain ⟨hnodes, hedges, hjoins⟩ := Draft.freeze_eq_ok h
  refine ⟨fun n hn => ?_, fun e he => ?_, ?_⟩
  · obtain ⟨i, m, -, rfl⟩ := Draft.mem_nodes_iff.mp (hnodes ▸ hn)
    exact ⟨i + 1, rfl⟩
  · obtain ⟨⟨j, -, -, hj⟩, ⟨k, -, -, hk⟩⟩ := hjoins e (hedges.subset he)
    exact ⟨j, k, hj, hk⟩
  · obtain ⟨marks, edges⟩ := d
    cases marks with
    | nil => exact absurd hnodes hne
    | cons m ms =>
      refine ⟨_, _, hnodes, rfl, fun n hn => ?_⟩
      obtain ⟨⟨m', k⟩, hk, rfl⟩ := List.mem_map.mp hn
      have hplace : 2 ≤ k := by simpa using List.le_snd_of_mem_zipIdx hk
      rw [ne_eq, nodeId_inj]
      omega

/-! ## Fingerprints -/

/-- The bytes of a text determine the text. -/
lemma Text.Utf8.encode_inj {s t : String} (h : encode s = encode t) : s = t := by
  apply String.toByteArray_inj.mp
  rw [← String.utf8Encode_toList, ← String.utf8Encode_toList, List.utf8Encode, List.utf8Encode]
  exact congrArg List.toByteArray h

/-- Two different messages with the same digest. -/
def Sha256.Collide (message message' : List UInt8) : Prop :=
  message ≠ message' ∧ Sha256.hex message = Sha256.hex message'

namespace Graph

variable {d d' : Draft} {g g' : Graph}

/-- **Fingerprints are exact.** For every two graphs of drafts that have nodes, and for all owners,
whatever their names hold: the texts that are hashed are equal if and only if the owners are the
same and the graphs are alike. So fingerprints are equal only for such flows, or for two texts on
which the hash function collides. -/
theorem fingerprint_exact (h : d.freeze = .ok g) (h' : d'.freeze = .ok g') (hne : g.nodes ≠ [])
    (hne' : g'.nodes ≠ []) (k k' : OwnerKind) (o o' : String) :
    (canonicalText k o g = canonicalText k' o' g' ↔ k = k' ∧ o = o' ∧ g.Alike g') ∧
      (fingerprint k o g = fingerprint k' o' g' → (k = k' ∧ o = o' ∧ g.Alike g') ∨
        Sha256.Collide (Text.Utf8.encode (canonicalText k o g))
          (Text.Utf8.encode (canonicalText k' o' g'))) := by
  have htext : canonicalText k o g = canonicalText k' o' g' ↔ k = k' ∧ o = o' ∧ g.Alike g' :=
    (Draft.numbered_of_freeze h hne).canonicalText_eq_iff (Draft.numbered_of_freeze h' hne')
  refine ⟨htext, fun hprint => ?_⟩
  by_cases heq : canonicalText k o g = canonicalText k' o' g'
  · exact .inl (htext.mp heq)
  · exact .inr ⟨fun henc => heq (Text.Utf8.encode_inj henc), hprint⟩

/-- A forged line of a node in the name of an owner does not lead to the text of another flow. -/
theorem fingerprint_exact_of_forged :
    canonicalText .contract "a\nnode:n1|action|" ⟨[⟨"n1", .action, "", 1⟩], []⟩ ≠
      canonicalText .contract "a" ⟨[⟨"n1", .action, "", 1⟩, ⟨"n2", .action, "", 2⟩], []⟩ := by
  have hone : (⟨[⟨.action, ""⟩], []⟩ : Draft).freeze = .ok ⟨[⟨"n1", .action, "", 1⟩], []⟩ := by
    simp [Draft.freeze, Draft.nodes, nodeId]
    rfl
  have htwo : (⟨[⟨.action, ""⟩, ⟨.action, ""⟩], []⟩ : Draft).freeze =
      .ok ⟨[⟨"n1", .action, "", 1⟩, ⟨"n2", .action, "", 2⟩], []⟩ := by
    simp [Draft.freeze, Draft.nodes, nodeId]
    rfl
  intro h
  have howner := ((fingerprint_exact hone htwo (by simp) (by simp) .contract .contract
    "a\nnode:n1|action|" "a").1.mp h).2.1
  exact absurd howner (by decide)

end Graph

end Flowchart
