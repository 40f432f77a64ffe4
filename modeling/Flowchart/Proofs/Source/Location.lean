import Flowchart.Proofs.Document.Formation
import Flowchart.Proofs.Tree.Traversal

set_option relaxedAutoImplicit false
set_option autoImplicit false

/-!
# Location of definitions

The definitions in a script are found by going through its tree: every call of the defining function
in one of the two forms of a definition gives one site, however deep it stands, and no other tree
gives any. The sites come in the order of the traversal, and so do their artifacts, those of the
contracts before those of the scenarios.

## Main definitions

* `Flowchart.Tree.Defines`: the two forms of a definition.
* `Flowchart.Tree.Place.Holds`: the sites of the definitions at a place.

## Main results

* `Flowchart.Tree.Place.site?_eq_some_iff`: a place has a site exactly if it holds a definition.
* `Flowchart.Tree.forall₂_contractSites`, `Flowchart.Tree.forall₂_scenarioSites`: one site for each
  definition.
* `Flowchart.Report.definitions_located`: definitions, sites and artifacts in their order.
-/

namespace Flowchart

namespace Tree

/-! ## Forms of definitions -/

/-- Whether a tree is a call of a function in one of the two forms of a definition, which gives a
name and a body: a string and a second argument, or an object that has a string as its `id`. -/
inductive Defines (call : Tree) (function name : String) (body : Tree) : Prop where
  | named {first second : Tree} {more : List Tree} :
    call.kind = "call_expression" → call.callee? = some function →
    call.arguments = first :: second :: more → first.unwrap.stringValue? = some name →
    second.unwrap = body → Defines call function name body
  | object {first : Tree} {more : List Tree} :
    call.kind = "call_expression" → call.callee? = some function →
    call.arguments = first :: more → first.unwrap.kind = "object" →
    first.unwrap.stringProperty? "id" = some name → first.unwrap = body →
    Defines call function name body

variable {t call body : Tree} {function name : String}

/-- A definition in one of the two forms is read off the arguments. -/
lemma definition?_eq_some_iff : call.definition? = some (name, body) ↔
    (∃ first second more, call.arguments = first :: second :: more ∧
      first.unwrap.stringValue? = some name ∧ second.unwrap = body) ∨
    ∃ first more, call.arguments = first :: more ∧ first.unwrap.kind = "object" ∧
      first.unwrap.stringProperty? "id" = some name ∧ first.unwrap = body := by
  unfold definition?
  cases harguments : call.arguments with
  | nil => simp
  | cons first more =>
    simp only [List.map_cons]
    cases hstring : first.unwrap.stringValue? with
    | some string =>
      -- a string is no object, so there must be a second argument
      have hkind : first.unwrap.kind ≠ "object" := fun h => by
        simp [stringValue?, h] at hstring
      cases more with
      | nil => simp [hkind]
      | cons second more => simp [hstring, hkind]
    | none =>
      by_cases hkind : first.unwrap.kind = "object"
      · simp [hstring, hkind]
      · simp [hstring, hkind]

/-- **A call defines** what is read off its arguments. -/
lemma defines_iff : call.Defines function name body ↔
    (call.kind = "call_expression" ∧ call.callee? = some function) ∧
      call.definition? = some (name, body) := by
  rw [definition?_eq_some_iff]
  constructor
  · rintro (@⟨first, second, more, hkind, hcallee, harguments, hname, hbody⟩ |
      @⟨first, more, hkind, hcallee, harguments, hobject, hname, hbody⟩)
    · exact ⟨⟨hkind, hcallee⟩, .inl ⟨first, second, more, harguments, hname, hbody⟩⟩
    · exact ⟨⟨hkind, hcallee⟩, .inr ⟨first, more, harguments, hobject, hname, hbody⟩⟩
  · rintro ⟨⟨hkind, hcallee⟩, ⟨first, second, more, harguments, hname, hbody⟩ |
      ⟨first, more, harguments, hobject, hname, hbody⟩⟩
    · exact .named hkind hcallee harguments hname hbody
    · exact .object hkind hcallee harguments hobject hname hbody

/-! ## Sites -/

namespace Place

variable {α : Type} {body? : Tree → Option α} {p : Place} {s : Site α}

/-- Whether a definition by a function stands at a place and has a given site, where `body?` tells
which bodies such a definition can have. -/
structure Holds (p : Place) (function : String) (body? : Tree → Option α) (s : Site α) : Prop where
  defines : ∃ body, p.tree.Defines function s.name body ∧ body? body = some s.body
  line_eq : s.line = p.tree.line
  binding?_eq : s.binding? = p.binding?

/-- The site of the definition at a place, if there is one. -/
def site? (p : Place) (function : String) (body? : Tree → Option α) : Option (Site α) :=
  if p.tree.kind == "call_expression" && p.tree.callee? == some function then
    (sight body? p).site?
  else none

/-- What a sighting of a definition is. -/
lemma site?_sight_eq_some_iff : (sight body? p).site? = some s ↔
    ∃ body, p.tree.definition? = some (s.name, body) ∧ body? body = some s.body ∧
      s.line = p.tree.line ∧ s.binding? = p.binding? := by
  obtain ⟨name, content, line, binding⟩ := s
  unfold sight
  cases p.tree.definition? with
  | none => simp [Sighting.site?]
  | some definition =>
    obtain ⟨name', body⟩ := definition
    cases hbody : body? body with
    | none =>
      simp only [hbody, Sighting.site?, reduceCtorEq, false_iff]
      rintro ⟨body', heq, hbody', -⟩
      cases heq
      rw [hbody] at hbody'
      cases hbody'
    | some content' =>
      simp only [hbody, Sighting.site?, Option.some.injEq, Site.mk.injEq, Prod.mk.injEq]
      constructor
      · rintro ⟨rfl, rfl, rfl, rfl⟩
        exact ⟨body, ⟨rfl, rfl⟩, hbody, rfl, rfl⟩
      · rintro ⟨body', ⟨rfl, rfl⟩, hbody', rfl, rfl⟩
        rw [hbody] at hbody'
        exact ⟨rfl, Option.some.inj hbody', rfl, rfl⟩

/-- **A place has a site** exactly if a definition stands there. -/
lemma site?_eq_some_iff : p.site? function body? = some s ↔ p.Holds function body? s := by
  simp only [site?, Bool.and_eq_true, beq_iff_eq, Option.ite_none_right_eq_some,
    site?_sight_eq_some_iff]
  constructor
  · rintro ⟨hcall, body, hdefinition, hbody, hline, hbinding⟩
    exact ⟨⟨body, defines_iff.mpr ⟨hcall, hdefinition⟩, hbody⟩, hline, hbinding⟩
  · rintro ⟨⟨body, hdefines, hbody⟩, hline, hbinding⟩
    obtain ⟨hcall, hdefinition⟩ := defines_iff.mp hdefines
    exact ⟨hcall, body, hdefinition, hbody, hline, hbinding⟩

instance (p : Place) (function : String) (body? : Tree → Option α) :
    Decidable (∃ s, p.Holds function body? s) :=
  decidable_of_iff ((p.site? function body?).isSome = true) <| by
    simp only [Option.isSome_iff_exists, site?_eq_some_iff]

end Place

variable {α : Type}

/-- The sites of the sightings in a script are those of its places. -/
lemma filterMap_sightings (root : Tree) (function : String) (body? : Tree → Option α) :
    ((root.callsOf function).map (sight body?)).filterMap Sighting.site? =
      root.places.filterMap fun p => p.site? function body? := by
  rw [List.filterMap_map, callsOf, List.filterMap_filter]
  rfl

/-- **There is one site for each definition at a place**, in the order of the places. -/
lemma forall₂_sites (function : String) (body? : Tree → Option α) (places : List Place) :
    List.Forall₂ (fun p s => p.Holds function body? s)
      (places.filter fun p => ∃ s, p.Holds function body? s)
      (places.filterMap fun p => p.site? function body?) := by
  induction places with
  | nil => exact .nil
  | cons p places ih =>
    rw [List.filter_cons, List.filterMap_cons]
    cases hsite : p.site? function body? with
    | none =>
      have hnone : ¬ ∃ s, p.Holds function body? s := by
        rintro ⟨s, hs⟩
        rw [Place.site?_eq_some_iff.mpr hs] at hsite
        cases hsite
      rw [if_neg (by simpa using hnone)]
      exact ih
    | some s =>
      have hs := Place.site?_eq_some_iff.mp hsite
      rw [if_pos (by simpa using ⟨s, hs⟩)]
      exact .cons hs ih

/-- **Every contract has one site**, in the order of the script. -/
lemma forall₂_contractSites (root : Tree) :
    List.Forall₂ (fun p s => p.Holds "define" contractBody? s)
      (root.places.filter fun p => ∃ s, p.Holds "define" contractBody? s) root.contractSites := by
  rw [contractSites, contractSightings, filterMap_sightings]
  exact forall₂_sites _ _ _

/-- **Every scenario has one site**, in the order of the script. -/
lemma forall₂_scenarioSites (root : Tree) :
    List.Forall₂ (fun p s => p.Holds "scenario" (fun body => some body.flowFunction?) s)
      (root.places.filter fun p => ∃ s,
        p.Holds "scenario" (fun body => some body.flowFunction?) s) root.scenarioSites := by
  rw [scenarioSites, scenarioSightings, filterMap_sightings]
  exact forall₂_sites _ _ _

/-- The owners of a script are its contracts and then its scenarios with a flow, by their names. -/
lemma map_owners (root : Tree) :
    root.owners.map (fun o => (o.2.kind, o.1)) =
      root.contractSites.map (fun s => (OwnerKind.contract, s.name)) ++
        (root.scenarioSites.filter fun s => s.body.isSome).map
          fun s => (OwnerKind.scenario, s.name) := by
  have hflows : ∀ (names : Names) (sites : List (Site (Option Tree))),
      (sites.flatMap fun s => s.body.toList.map fun function =>
        (s.name, Owner.scenario names function)).map (fun o => (o.2.kind, o.1)) =
      (sites.filter fun s => s.body.isSome).map fun s => (OwnerKind.scenario, s.name) := by
    intro names sites
    induction sites with
    | nil => rfl
    | cons s sites ih =>
      rw [List.flatMap_cons, List.map_append, ih, List.filter_cons]
      cases s.body <;> rfl
  rw [owners, List.map_append, hflows, List.map_map]
  rfl

end Tree

namespace Report

/-- The artifacts of owners have the kinds and the names of the owners. -/
lemma Documents.map_owner {owners : List (String × Owner)} {r : Report} (h : Documents owners r) :
    r.artifacts.map (fun a => (a.ownerKind, a.ownerId)) = owners.map fun o => (o.2.kind, o.1) := by
  obtain ⟨artifacts, notes⟩ := r
  unfold Documents at h
  dsimp only at h ⊢
  induction h with
  | nil => rfl
  | cons ha _ ih =>
    obtain ⟨g, -, rfl⟩ := Owner.exists_of_artifact ha
    rw [List.map_cons, List.map_cons, ih]
    rfl

/-- **Every definition is located exactly once, in the order of the script.** A traversal of a tree
visits its preorder, which goes through all addresses below the tree, each once and in their order;
in a tree that was read from a listing the rows increase. The places of the nodes come in the same
order. There is one site for each place that holds a definition of a contract, and one for each that
holds a definition of a scenario, and no others. The report on the script has one artifact for each
contract site, and then one for each scenario site with a flow function, named as the sites are.

**Proof sketch.** What is promised by the stack of a traversal does not change from step to step
(`Traversal.promised_step`), so it is the preorder of the root. A place has a site exactly if it
holds a definition (`Tree.Place.site?_eq_some_iff`), and the report documents the owners one by one
(`exists_documents`). -/
theorem definitions_located (path : Path) (root : Tree) :
    (Traversal.start root).visited = root.preorder ∧
      (∃ addresses, root.Enumerates addresses root.preorder) ∧
      (∀ script rows, Tree.ofRows script rows = some root →
        (root.preorder.map Tree.row).Pairwise (· < ·)) ∧
      root.places.map Tree.Place.tree = root.preorder ∧
      List.Forall₂ (fun p s => p.Holds "define" Tree.contractBody? s)
        (root.places.filter fun p => ∃ s, p.Holds "define" Tree.contractBody? s)
        root.contractSites ∧
      List.Forall₂ (fun p s => p.Holds "scenario" (fun body => some body.flowFunction?) s)
        (root.places.filter fun p => ∃ s,
          p.Holds "scenario" (fun body => some body.flowFunction?) s)
        root.scenarioSites ∧
      ∃ r, ofTree path root = .ok r ∧ Documents root.owners r ∧
        r.artifacts.map (fun a => (a.ownerKind, a.ownerId)) =
          root.contractSites.map (fun s => (OwnerKind.contract, s.name)) ++
            (root.scenarioSites.filter fun s => s.body.isSome).map
              fun s => (OwnerKind.scenario, s.name) := by
  obtain ⟨r, hr, hdocuments⟩ := exists_documents path root
  refine ⟨Traversal.visited_start root, root.exists_enumerates, fun _ _ => Tree.pairwise_row,
    Tree.map_tree_placesWithin [] root, root.forall₂_contractSites, root.forall₂_scenarioSites,
    r, hr, hdocuments, ?_⟩
  rw [hdocuments.map_owner, root.map_owners]

end Report

end Flowchart
