import PackageFlags.Remaining
import PackageFlags.Selection.Basic

/-!
# Ordering packages before their dependencies

The packages that a node reaches over used dependencies are visited depth first,
dependencies in the order in which they are declared. A package is put in front
of the result when all that it uses has been placed, so that it comes before its
dependencies. Each package is entered once, also on cyclic graphs.
-/

namespace PackageFlags
namespace Order

/-- A step of the walk. -/
inductive Step
  /-- Visit a node unless it has been visited. -/
  | enter (id : NodeId)
  /-- Put a node in front of the result. -/
  | leave (id : NodeId)
  deriving DecidableEq, Repr

/-- The number of steps that entering a node adds at most. -/
def enteringCost (graph : Graph) (id : NodeId) : Nat :=
  (graph.children id).length + 1

/-- Carry out steps in order. Entering a node puts the nodes that it uses and
its own leaving in front of the steps that remain. -/
def walk
    (graph : Graph)
    (selection : Selection)
    (visited placed : List NodeId) : List Step -> List NodeId
  | [] => placed
  | .leave id :: rest => walk graph selection visited (id :: placed) rest
  | .enter id :: rest =>
      if id ∈ graph.nodes ∧ id ∉ visited then
        walk graph selection (id :: visited) placed
          ((selection.usedChildren graph id).map Step.enter
            ++ .leave id :: rest)
      else
        walk graph selection visited placed rest
termination_by
  steps =>
    remaining (enteringCost graph) graph.nodes visited
      + steps.length
decreasing_by
  · simp
  · rename_i fresh
    have paid := remaining_add_cost_le
      (enteringCost graph)
      (List.subset_cons_self id visited)
      fresh.1
      fresh.2
      List.mem_cons_self
    have fewUsed := selection.length_usedChildren_le graph id
    simp only [enteringCost] at paid
    simp only [List.length_append, List.length_map, List.length_cons]
    omega
  · simp

end Order

namespace Graph

/-- The packages that a node reaches over used dependencies, each one before its
own dependencies as far as cycles allow. -/
def flatten
    (graph : Graph)
    (selection : Selection)
    (root : NodeId) : List NodeId :=
  Order.walk graph selection [] [] [.enter root]

end Graph
end PackageFlags
