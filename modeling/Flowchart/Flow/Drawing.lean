import Flowchart.Graph.Draft

set_option autoImplicit false

/-!
# Drawings

How a part of a flow chart is drawn: given the number of nodes before it and the open ends of
control flow that lead into it, a part adds nodes and edges and leaves open ends of its own.

## Main definitions

* `Flowchart.Fragment`: what a part adds and leaves open.
* `Flowchart.Drawing`: a part, as a function of what comes before it.
* `Flowchart.Draft.draw`: a draft with a part drawn behind it.
* `Flowchart.Drawing.skip`, `mark`, `andThen`, `chain`, `branch`, `loop`, `settle`: the ways to
  build drawings.
* `Flowchart.Drawing.chart`: a whole chart between its two terminals.

## Design

Several open ends at once stand for control that comes from several places, so no part needs to know
what it is drawn after. A loop is never unrolled: its body leads back to its one node.
-/

namespace Flowchart

/-- What a part of a flow chart adds to the chart, and the ends that it leaves open. -/
structure Fragment where
  /-- The nodes, in the order of their places. -/
  marks : List Mark
  /-- The edges, in the order in which they are drawn. -/
  edges : List Graph.Edge
  /-- The ends at which control goes on behind the part. -/
  continues : List Entry
  /-- The ends at which control returns from the function around the part. -/
  returns : List Entry
  deriving DecidableEq, Repr

/-- All open ends of a fragment. -/
def Fragment.exits (f : Fragment) : List Entry :=
  f.continues ++ f.returns

/-- A draft extended by a fragment that was drawn behind it. -/
def Draft.extend (d : Draft) (f : Fragment) : Draft where
  marks := d.marks ++ f.marks
  edges := d.edges ++ f.edges

/-- A part of a flow chart: the fragment for each number of nodes before it and each list of open
ends that lead into it. -/
abbrev Drawing := (size : Nat) → (entries : List Entry) → Fragment

/-- A draft with a part drawn behind it, and the fragment that was added. -/
def Draft.draw (d : Draft) (part : Drawing) (entries : List Entry) : Draft × Fragment :=
  let f := part d.size entries
  (d.extend f, f)

namespace Drawing

/-! ### Parts in a row -/

/-- The part that adds nothing and lets control through. -/
def skip : Drawing := fun _ entries =>
  ⟨[], [], entries, []⟩

/-- One node, which control passes. -/
def mark (m : Mark) : Drawing := fun size entries =>
  let id := nodeId (size + 1)
  ⟨[m], link entries id, [⟨id, none⟩], []⟩

/-- Two parts, the second behind the first. Ends that return from the first do not enter the second.
-/
def andThen (first second : Drawing) : Drawing := fun size entries =>
  let f := first size entries
  let g := second (size + f.marks.length) f.continues
  ⟨f.marks ++ g.marks, f.edges ++ g.edges, g.continues, f.returns ++ g.returns⟩

/-- Parts one behind the other. -/
def sequence (parts : List Drawing) : Drawing :=
  parts.foldr andThen skip

/-- Nodes one behind the other. -/
def chain (marks : List Mark) : Drawing :=
  sequence (marks.map mark)

/-- A part that is drawn only where control can get to it. -/
def whenLive (part : Drawing) : Drawing := fun size entries =>
  if entries.isEmpty then skip size entries else part size entries

/-! ### Ends -/

/-- A part whose ends all return. -/
def leaving (part : Drawing) : Drawing := fun size entries =>
  let f := part size entries
  { f with continues := [], returns := f.exits }

/-- The part that adds nothing and returns at once, by edges with a label. -/
def returning (label : String) : Drawing := fun _ entries =>
  ⟨[], [], [], entries.map fun e => ⟨e.node, some label⟩⟩

/-- One node behind which control ends. -/
def stop (m : Mark) : Drawing := fun size entries =>
  { mark m size entries with continues := [] }

/-- A part whose ends all go on, the returning ones too. If it has none, control goes on from where
it entered the part, by edges with a label of their own. -/
def settle (label : Option String) (part : Drawing) : Drawing := fun size entries =>
  let f := part size entries
  let ends := if f.exits.isEmpty then entries.map fun e => ⟨e.node, label⟩ else f.exits
  { f with continues := ends, returns := [] }

/-! ### Choices and loops -/

/-- A decision between two parts, which control leaves by the ends of both. -/
def branch (label : String) (whenTrue whenFalse : Drawing) : Drawing := fun size entries =>
  let id := nodeId (size + 1)
  let f := whenTrue (size + 1) [⟨id, some "true"⟩]
  let g := whenFalse (size + 1 + f.marks.length) [⟨id, some "false"⟩]
  ⟨⟨.decision, label⟩ :: (f.marks ++ g.marks), link entries id ++ f.edges ++ g.edges,
    f.continues ++ g.continues, f.returns ++ g.returns⟩

/-- The edges from the ends of a loop's body back to the loop; an end without a label is followed by
the next round. -/
def backEdges (entries : List Entry) (id : String) : List Graph.Edge :=
  entries.map fun e => ⟨e.node, id, some (e.label.getD "next")⟩

/-- A loop over a part. It is left at its node only, after any number of rounds. -/
def loop (label : String) (body : Drawing) : Drawing := fun size entries =>
  let id := nodeId (size + 1)
  let f := body (size + 1) [⟨id, some "iterate"⟩]
  ⟨⟨.loop, label⟩ :: f.marks, link entries id ++ f.edges ++ backEdges f.continues id,
    [⟨id, some "done"⟩], f.returns⟩

/-! ### Charts -/

/-- The chart of a part: its two terminals are the first nodes, the part is entered from the start,
and all ends at which it goes on lead to the finish. -/
def chart (finish : String) (part : Drawing) : Draft :=
  let d : Draft := ⟨[⟨.start, "start"⟩, ⟨.finish, finish⟩], []⟩
  let (d, f) := d.draw part [⟨nodeId 1, none⟩]
  d.connect f.continues (nodeId 2)

end Drawing

end Flowchart
