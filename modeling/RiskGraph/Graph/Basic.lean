import RiskGraph.Node.Basic
import RiskGraph.Table

/-!
# Decision graphs

A graph is a row of nodes with the ways on from each; nodes are addressed by their place in the row,
so that no way leads out of the graph.  An index gives the place of each identifier.

Whether ways lead round in circles is told from the successors of each node, with repetition.
Sorting removes nodes that no remaining edge enters, one after the other; it removes all of them if
there is no cycle.  Otherwise the nodes that remain are reduced further, from the other end, to
those from which an edge leads on to another that remains.
-/

namespace RiskGraph

/-! ## Rows addressed by place -/

section

variable {α : Type} {size : Nat}

/-- Access by place asks for no proof that the place is in range. -/
instance getElemPlace : GetElem (Vector α size) (Fin size) α fun _ _ => True where
  getElem row place _ := row.get place

@[simp]
theorem getElem_place (row : Vector α size) (place : Fin size) : row[place] = row[place.val] :=
  rfl

end

/-! ## Graphs -/

/-- The ways on from a node of a graph of the given size. -/
inductive Exits (size : Nat) where
  | terminal
  | next (target : Fin size)
  | branch (onTrue onFalse : Fin size)
  deriving DecidableEq

/-- The nodes that the ways lead to. -/
def Exits.targets {size : Nat} : Exits size → List (Fin size)
  | terminal => []
  | next target => [target]
  | branch onTrue onFalse => [onTrue, onFalse]

/-- A decision graph. -/
structure Graph where
  size : Nat
  /-- The nodes, in the order of their definition. -/
  nodes : Vector Node size
  /-- The place of each identifier. -/
  index : Table (Fin size)
  exits : Vector (Exits size) size
  start : Fin size

namespace Graph

/-- The node with an identifier. -/
def find? (graph : Graph) (id : String) : Option Node :=
  (graph.index.get? id).map fun place => graph.nodes[place]

end Graph

/-! ## Cycles -/

section

variable {size : Nat}

/-- Number of edges that enter a node. -/
def enteringEdges (successors : Fin size → List (Fin size)) (node : Fin size) : Nat :=
  (List.finRange size).foldl (fun total source => total + (successors source).count node) 0

/-- A topological sorting under way. -/
structure Sorting (size : Nat) where
  /-- For each node, how many edges enter it from nodes that remain. -/
  entering : Vector Nat size
  /-- Nodes that no such edge enters and that wait for their removal, the first one next. -/
  ready : List (Fin size)
  /-- Nodes that have been removed, the latest first. -/
  removed : List (Fin size)

namespace Sorting

/-- The sorting before any removal. -/
def begin (successors : Fin size → List (Fin size)) : Sorting size :=
  { entering := Vector.ofFn (enteringEdges successors)
    ready := (List.finRange size).filter fun node => enteringEdges successors node = 0
    removed := [] }

/-- Removes one edge into a node; the last one makes the node ready. -/
def release (sorting : Sorting size) (target : Fin size) : Sorting size :=
  let count := sorting.entering[target] - 1
  { sorting with
    entering := sorting.entering.set target count target.isLt
    ready := if count = 0 then sorting.ready ++ [target] else sorting.ready }

/-- Removes a node and the edges that leave it. -/
def remove (successors : Fin size → List (Fin size)) (sorting : Sorting size) (node : Fin size)
    (waiting : List (Fin size)) : Sorting size :=
  (successors node).foldl release
    { sorting with ready := waiting, removed := node :: sorting.removed }

/-- Removes nodes in turn, as many as the given number at most. -/
def run (successors : Fin size → List (Fin size)) : Nat → Sorting size → Sorting size
  | 0, sorting => sorting
  | removals + 1, sorting =>
      match sorting.ready with
      | [] => sorting
      | node :: waiting => run successors removals (sorting.remove successors node waiting)

end Sorting

/-- The sorting after all removals. -/
def sorted (successors : Fin size → List (Fin size)) : Sorting size :=
  (Sorting.begin successors).run successors size

/-- The members of a set from which an edge leads to a member. -/
def withSuccessor (successors : Fin size → List (Fin size)) (members : Vector Bool size) :
    Vector Bool size :=
  Vector.ofFn fun node => members[node] && (successors node).any fun target => members[target]

/-- Takes members without a successor away until none is left, in the given number of rounds at
most. -/
def peel (successors : Fin size → List (Fin size)) :
    Nat → Vector Bool size → Vector Bool size
  | 0, members => members
  | rounds + 1, members =>
      let next := withSuccessor successors members
      if next = members then members else peel successors rounds next

/-- The nodes between and on cycles, or nothing if there is no cycle. -/
def cycleCore? (successors : Fin size → List (Fin size)) : Option (List (Fin size)) :=
  let sorting := sorted successors
  if sorting.removed.length = size then none
  else
    let remaining := Vector.ofFn fun node => decide (0 < sorting.entering[node])
    let members := peel successors size remaining
    some ((List.finRange size).filter fun node => members[node])

end

end RiskGraph
