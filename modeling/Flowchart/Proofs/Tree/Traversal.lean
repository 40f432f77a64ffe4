import Flowchart.Proofs.Tree.Wrappers
import Flowchart.Tree.Rows
import Mathlib.Data.List.Range

set_option relaxedAutoImplicit false
set_option autoImplicit false

/-!
# Traversals

A tree is gone through with a stack: the tree on top is taken off, and its named children are put
there instead. What is still to come is always the preorder of the trees on the stack, one after the
other. So all nodes that are reached through named children are visited, each of them once, parents
before their children and siblings from left to right.

## Main definitions

* `Flowchart.Traversal`: a traversal under way.
* `Flowchart.Tree.Reaches`: the nodes that are reached through named children.
* `Flowchart.Tree.at?`: the node at an address.

## Main results

* `Flowchart.Traversal.visited_start`: a traversal visits the preorder of its root.
* `Flowchart.Tree.mem_preorder_iff`: the preorder holds the nodes that are reached.
* `Flowchart.Tree.exists_enumerates`: the preorder goes through all addresses in their order.
* `Flowchart.Tree.pairwise_row`: the rows of a listing are visited from the first to the last.
-/

namespace Flowchart

/-! ## Preorder -/

namespace Tree

variable {t : Tree}

/-- The preorder of siblings is that of the named ones, one after the other. -/
lemma forestPreorder_eq (cs : List Tree) :
    forestPreorder cs = (cs.filter named).flatMap preorder := by
  induction cs with
  | nil => rfl
  | cons c cs ih => by_cases hc : c.named = true <;> simp [forestPreorder, hc, ih]

/-- **The preorder of a tree** is the tree itself, and then the preorder of each named child. -/
lemma preorder_eq (t : Tree) : t.preorder = t :: t.namedChildren.flatMap preorder := by
  cases t with
  | node h cs => rw [preorder, forestPreorder_eq, namedChildren, children_node]

/-- A named child of a tree is smaller than the tree. -/
lemma sizeOf_lt_of_mem_namedChildren {c : Tree} (h : c ∈ t.namedChildren) : sizeOf c < sizeOf t :=
  sizeOf_lt_of_mem_children (List.mem_filter.mp h).1

end Tree

/-! ## Going through a tree -/

/-- A traversal under way. -/
structure Traversal where
  /-- The nodes so far, in the order of the visit. -/
  reached : List Tree
  /-- The stack of the trees to go on with, the top of it first. -/
  stack : List Tree

namespace Traversal

/-- The traversal of a tree before its first step. -/
def start (root : Tree) : Traversal :=
  ⟨[], [root]⟩

/-- A stack on which trees are put, one after the other. -/
def push (stack trees : List Tree) : List Tree :=
  trees.foldl (fun stack t => t :: stack) stack

/-- One step: the tree on top is visited, and its named children are put on the stack, the last of
them first. There is no step if the stack is empty. -/
def step? : Traversal → Option Traversal
  | ⟨_, []⟩ => none
  | ⟨reached, t :: stack⟩ => some ⟨reached ++ [t], push stack t.namedChildren.reverse⟩

/-- What a traversal has visited in the end, if it goes on as it should. -/
def promised (s : Traversal) : List Tree :=
  s.reached ++ s.stack.flatMap Tree.preorder

/-- The number of steps that a traversal has to make. -/
def remaining (s : Traversal) : ℕ :=
  (s.stack.flatMap Tree.preorder).length

variable {s s' : Traversal}

/-- Trees that are put on a stack in reverse order are taken off in their order. -/
lemma push_reverse (stack trees : List Tree) : push stack trees.reverse = trees ++ stack := by
  simp [push]

/-- The preorder of the top of a stack is that of the tree and of what it is replaced by. -/
lemma flatMap_push (stack : List Tree) (t : Tree) :
    (t :: stack).flatMap Tree.preorder =
      t :: (push stack t.namedChildren.reverse).flatMap Tree.preorder := by
  rw [push_reverse, List.flatMap_cons, List.flatMap_append, Tree.preorder_eq, List.cons_append]

/-- **A step keeps what is promised.** -/
lemma promised_step (h : s.step? = some s') : s'.promised = s.promised := by
  obtain ⟨reached, _ | ⟨t, stack⟩⟩ := s
  · cases h
  · obtain rfl := Option.some.inj h
    rw [promised, promised, flatMap_push, List.append_assoc]
    rfl

/-- **A step brings the end nearer.** -/
lemma remaining_step (h : s.step? = some s') : s.remaining = s'.remaining + 1 := by
  obtain ⟨reached, _ | ⟨t, stack⟩⟩ := s
  · cases h
  · obtain rfl := Option.some.inj h
    rw [remaining, remaining, flatMap_push, List.length_cons]

/-- A traversal without a step has visited what was promised. -/
lemma promised_of_step_none (h : s.step? = none) : s.promised = s.reached := by
  obtain ⟨reached, _ | ⟨t, stack⟩⟩ := s
  · exact List.append_nil reached
  · cases h

/-- What a traversal has visited when there is no step left. -/
def visited (s : Traversal) : List Tree :=
  match _h : s.step? with
  | none => s.reached
  | some s' => s'.visited
termination_by s.remaining
decreasing_by
  have := remaining_step _h
  omega

/-- **A traversal visits what is promised.** -/
lemma visited_eq (s : Traversal) : s.visited = s.promised := by
  induction s using visited.induct with
  | case1 s h =>
    rw [visited, promised_of_step_none h]
    split
    · rfl
    · next s' hs' => rw [h] at hs'; cases hs'
  | case2 s s' h ih =>
    rw [visited, ← promised_step h, ← ih]
    split
    · next hs' => rw [h] at hs'; cases hs'
    · next s'' hs' =>
      rw [h] at hs'
      rw [Option.some.inj hs']

/-- **The traversal of a tree visits its preorder.** -/
lemma visited_start (root : Tree) : (start root).visited = root.preorder := by
  rw [visited_eq, promised, start, List.nil_append, List.flatMap_singleton]

end Traversal

/-! ## Nodes that are reached -/

namespace Tree

variable {t : Tree}

/-- Whether a node is the tree itself or reached from it through named children. -/
inductive Reaches : Tree → Tree → Prop where
  | self (t : Tree) : Reaches t t
  | through {t c d : Tree} : c ∈ t.namedChildren → Reaches c d → Reaches t d

/-- **The preorder holds the nodes that are reached.** -/
lemma mem_preorder_iff {t d : Tree} : d ∈ t.preorder ↔ t.Reaches d := by
  constructor
  · intro h
    rw [preorder_eq, List.mem_cons, List.mem_flatMap] at h
    rcases h with rfl | ⟨c, hc, hd⟩
    · exact .self d
    · have := sizeOf_lt_of_mem_namedChildren hc
      exact .through hc (mem_preorder_iff.mp hd)
  · intro h
    induction h with
    | self t =>
      rw [preorder_eq]
      exact List.mem_cons_self
    | through hc _ ih =>
      rw [preorder_eq]
      exact List.mem_cons_of_mem _ (List.mem_flatMap.mpr ⟨_, hc, ih⟩)
termination_by sizeOf t

/-- The node at an address: at each place of the address one goes on with the named child that has
this place among its named siblings. -/
def at? (t : Tree) : List ℕ → Option Tree
  | [] => some t
  | i :: address => t.namedChildren[i]?.bind fun c => c.at? address

/-- Whether trees are those at the addresses below a tree: at all of them, each once, and in the
order of the addresses. So a node comes before the nodes below it, and these come before those of
its later siblings. -/
structure Enumerates (t : Tree) (addresses : List (List ℕ)) (nodes : List Tree) : Prop where
  increasing : addresses.Pairwise (· < ·)
  mem_iff : ∀ address, address ∈ addresses ↔ (t.at? address).isSome = true
  map_eq : addresses.map t.at? = nodes.map some

/-- The nodes below a tree are enumerated by those below its named children. -/
lemma Enumerates.node {nodes : Tree → List Tree} {addresses : Tree → List (List ℕ)}
    (h : ∀ c ∈ t.namedChildren, c.Enumerates (addresses c) (nodes c)) :
    t.Enumerates ([] :: t.namedChildren.zipIdx.flatMap fun c => (addresses c.1).map (c.2 :: ·))
      (t :: t.namedChildren.flatMap nodes) where
  increasing := by
    rw [List.pairwise_cons, List.pairwise_flatMap]
    refine ⟨fun a ha => ?_, fun c hc => ?_, ?_⟩
    · obtain ⟨c, -, ha⟩ := List.mem_flatMap.mp ha
      obtain ⟨b, -, rfl⟩ := List.mem_map.mp ha
      exact List.nil_lt_cons _ _
    · have hmem : c.1 ∈ t.namedChildren := List.fst_mem_of_mem_zipIdx hc
      rw [List.pairwise_map]
      exact (h c.1 hmem).increasing.imp fun hlt => List.cons_lt_cons_iff.mpr (.inr ⟨rfl, hlt⟩)
    · have hplaces : t.namedChildren.zipIdx.Pairwise fun c d => c.2 < d.2 := by
        rw [← List.pairwise_map (f := Prod.snd) (R := fun i j : ℕ => i < j), List.zipIdx_map_snd]
        exact List.pairwise_lt_range'
      refine hplaces.imp fun {c d} hlt a ha b hb => ?_
      obtain ⟨a, -, rfl⟩ := List.mem_map.mp ha
      obtain ⟨b, -, rfl⟩ := List.mem_map.mp hb
      exact List.cons_lt_cons_iff.mpr (.inl hlt)
  mem_iff := by
    intro address
    cases address with
    | nil => simp [at?]
    | cons i address =>
      simp only [List.mem_cons, reduceCtorEq, List.mem_flatMap, List.mem_map, List.cons.injEq,
        false_or, at?]
      constructor
      · rintro ⟨⟨c, i'⟩, hc, b, hb, rfl, rfl⟩
        have hplace := List.mem_zipIdx_iff_getElem?.mp hc
        rw [hplace, Option.bind_some]
        exact ((h c (List.mem_of_getElem? hplace)).mem_iff b).mp hb
      · intro hsome
        cases hc : t.namedChildren[i]? with
        | none => simp [hc] at hsome
        | some c =>
          rw [hc, Option.bind_some] at hsome
          exact ⟨(c, i), List.mem_zipIdx_iff_getElem?.mpr hc, address,
            ((h c (List.mem_of_getElem? hc)).mem_iff address).mpr hsome, rfl, rfl⟩
  map_eq := by
    have hbelow : ∀ c ∈ t.namedChildren.zipIdx,
        ((addresses c.1).map (c.2 :: ·)).map t.at? = (nodes c.1).map some := by
      rintro ⟨c, i⟩ hc
      have hplace := List.mem_zipIdx_iff_getElem?.mp hc
      rw [List.map_map, ← (h c (List.mem_of_getElem? hplace)).map_eq]
      refine List.map_congr_left fun a _ => ?_
      rw [Function.comp_apply, at?, hplace, Option.bind_some]
    have hfirst : t.namedChildren.flatMap nodes =
        t.namedChildren.zipIdx.flatMap fun c => nodes c.1 := by
      conv_lhs => rw [← List.zipIdx_map_fst 0 t.namedChildren, List.flatMap_map]
    rw [List.map_cons, List.map_cons, List.map_flatMap, List.flatMap_congr hbelow, hfirst,
      List.map_flatMap]
    rfl

/-- **The preorder goes through all addresses in their order.** -/
lemma exists_enumerates (t : Tree) : ∃ addresses, t.Enumerates addresses t.preorder := by
  have hbelow : ∀ c, ∃ addresses, c ∈ t.namedChildren → c.Enumerates addresses c.preorder := by
    intro c
    by_cases hc : c ∈ t.namedChildren
    · have := sizeOf_lt_of_mem_namedChildren hc
      obtain ⟨addresses, h⟩ := exists_enumerates c
      exact ⟨addresses, fun _ => h⟩
    · exact ⟨[], fun h => absurd h hc⟩
  choose addresses h using hbelow
  rw [preorder_eq]
  exact ⟨_, .node h⟩
termination_by sizeOf t

/-! ## Rows of a listing -/

mutual

/-- The rows of all nodes of a tree, tokens included, each before those of its children. -/
def allRows : Tree → List ℕ
  | .node h cs => h.row :: forestRows cs

/-- The rows of all nodes of siblings. -/
def forestRows : List Tree → List ℕ
  | [] => []
  | c :: cs => c.allRows ++ forestRows cs

end

/-- The rows of siblings are those of each of them, one after the other. -/
lemma forestRows_eq (cs : List Tree) : forestRows cs = cs.flatMap allRows := by
  induction cs with
  | nil => rfl
  | cons c cs ih => rw [forestRows, ih, List.flatMap_cons]

mutual

/-- The rows of the nodes that are reached are among all rows, in the same order. -/
lemma map_row_preorder_sublist (t : Tree) : (t.preorder.map row).Sublist t.allRows := by
  cases t with
  | node h cs => exact (map_row_forestPreorder_sublist cs).cons_cons h.row

lemma map_row_forestPreorder_sublist (cs : List Tree) :
    ((forestPreorder cs).map row).Sublist (forestRows cs) := by
  cases cs with
  | nil => exact .refl []
  | cons c cs =>
    have ihc := map_row_preorder_sublist c
    have ihcs := map_row_forestPreorder_sublist cs
    rw [forestPreorder, forestRows, List.map_append]
    refine .append ?_ ihcs
    split_ifs
    · exact ihc
    · exact List.nil_sublist _

end

/-- A row that takes trees as its children stands before the rows of all of them. -/
lemma flatMap_allRows_adopt (script : List UInt8) (entry : Row × ℕ) (pending : List (ℕ × Tree)) :
    (adopt script entry pending).flatMap (fun p => p.2.allRows) =
      entry.2 :: pending.flatMap fun p => p.2.allRows := by
  have hsplit : pending.takeWhile (fun p => entry.1.depth < p.1) ++
      pending.drop (pending.takeWhile fun p => entry.1.depth < p.1).length = pending :=
    List.prefix_iff_eq_append.mp (List.takeWhile_prefix _)
  conv_rhs => rw [← hsplit]
  simp only [adopt, List.flatMap_cons, allRows, forestRows_eq, List.flatMap_map,
    List.flatMap_append, List.cons_append]
  rfl

/-- The rows of the trees that entries of a listing make are the numbers of the entries. -/
lemma flatMap_allRows_foldr (script : List UInt8) (entries : List (Row × ℕ)) :
    (entries.foldr (adopt script) []).flatMap (fun p => p.2.allRows) =
      entries.map Prod.snd := by
  induction entries with
  | nil => rfl
  | cons entry entries ih => rw [List.foldr_cons, flatMap_allRows_adopt, ih, List.map_cons]

/-- **The rows of a listing are visited from the first to the last.** -/
lemma pairwise_row {script : List UInt8} {rows : List Row} (h : ofRows script rows = some t) :
    (t.preorder.map row).Pairwise (· < ·) := by
  obtain ⟨⟨depth, t'⟩, hhead, rfl⟩ := Option.map_eq_some_iff.mp h
  have hnumbers := flatMap_allRows_foldr script rows.zipIdx
  rw [List.eq_cons_of_mem_head? hhead, List.flatMap_cons, List.zipIdx_map_snd] at hnumbers
  have hrows : (t'.allRows ++ _).Pairwise (· < ·) := hnumbers ▸ List.pairwise_lt_range'
  exact (List.pairwise_append.mp hrows).1.sublist (map_row_preorder_sublist t')

end Tree

end Flowchart
