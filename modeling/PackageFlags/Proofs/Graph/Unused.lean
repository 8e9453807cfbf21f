import PackageFlags.Proofs.Graph.Agreement

/-!
# Unused dependencies

Which packages are used is known only when propagation has come to its end. Still,
no other packages are looked at on the way there, nor afterwards: a graph that
differs in them, in their edges and in all that only they reach gives the same
selection, the same order and the same flags.
-/

namespace PackageFlags
namespace Graph

variable {left right : Graph} {selection : Selection}
variable {root : NodeId} {wanted : Wanted}

/-- What a selection uses among the nodes that are reached is reached. -/
theorem closedUnderUse_reachesUsed
    (graph : Graph)
    (selection : Selection)
    (root : NodeId) :
    ClosedUnderUse (graph.ReachesUsed selection root) graph
      fun id dependency => selection.uses id dependency = true := by
  intro id dependency child reaches isUsed isMember
  have uses : graph.Uses selection id child :=
    ⟨dependency, mem_children.mp isMember, of_decide_eq_true isUsed⟩
  exact reaches.tail uses

/-- Dependencies that propagation does not use contribute nothing. Where it succeeds,
a graph with the same packages and dependencies on the nodes that are reached over
used dependencies gives the same selection and warnings. From the root the same
dependencies are used and the same nodes reached, and the order and the flags are the
same, also with an installation root in place of those of the packages. -/
theorem propagate_ignores_unused
    (isPropagated : (Selection.propagate left root wanted).outcome = .ok selection)
    (agree : AgreeOn (left.ReachesUsed selection root) left right) :
    (Selection.propagate right root wanted).outcome = .ok selection
      ∧ (Selection.propagate right root wanted).warnings =
          (Selection.propagate left root wanted).warnings
      ∧ (∀ id, left.ReachesUsed selection root id →
          selection.usedChildren right id = selection.usedChildren left id)
      ∧ (∀ id, right.ReachesUsed selection root id ↔
          left.ReachesUsed selection root id)
      ∧ right.flatten selection root = left.flatten selection root
      ∧ ∀ override,
          right.aggregate selection (right.flatten selection root) override =
            left.aggregate selection (left.flatten selection root) override := by
  have isRoot : left.ReachesUsed selection root root := Relation.ReflTransGen.refl
  have isNode : root ∈ left.nodes := Selection.mem_nodes_of_propagate isPropagated
  have closed := left.closedUnderUse_reachesUsed selection root
  have propagationClosed : ClosedUnderUse (left.ReachesUsed selection root) left
      (Selection.propagate left root wanted).Uses :=
    fun id dependency child reaches isUsed =>
      closed id dependency child reaches (isUsed selection isPropagated)
  have propagatedSame : Selection.propagate right root wanted =
      Selection.propagate left root wanted := by
    have same := agree.embeds.propagate_eq propagationClosed isRoot isNode
    rwa [Selection.Propagation.relocate_id] at same
  have orderSame : right.flatten selection root = left.flatten selection root := by
    have same := agree.embeds.flatten_eq closed isRoot
    rwa [Selection.relocate_id, List.map_id] at same
  have isNodeRight : root ∈ right.nodes :=
    Selection.mem_nodes_of_propagate (propagatedSame ▸ isPropagated)
  refine ⟨propagatedSame ▸ isPropagated, propagatedSame ▸ rfl, ?_, ?_, orderSame,
    fun override => ?_⟩
  · intro id reaches
    have same := agree.embeds.usedChildren_eq reaches selection
    rwa [Selection.relocate_id, List.map_id] at same
  · intro id
    rw [← mem_flatten_iff isNodeRight, orderSame, mem_flatten_iff isNode]
  · rw [orderSame]
    exact agree.aggregate_eq (fun _ => (mem_flatten_iff isNode).mp) selection override

/-- Three packages, each of which declares the next as a dependency. The first uses
the second, which only needs itself. -/
def chainTo (last : Package) : Graph :=
  (((Graph.empty.add (Selection.referring "a" "x" "b:y")).add
    (Selection.referring "b" "y" ":y")).add last).connect ⟨0, "b", 1⟩
      |>.connect ⟨1, "c", 2⟩

/-- What is selected along the chain. -/
def chainSelection : Selection where
  selected := [(0, "x"), (1, "y")]
  used := [(0, "b")]

/-- The last package of the chain may be another one, with a dependency that leads
back to the first. -/
theorem propagate_ignores_unused_chainTo :
    (Selection.propagate
          ((chainTo (Selection.referring "d" "w" ":w")).connect ⟨2, "a", 0⟩) 0
          { components := ["x"] }).outcome = .ok chainSelection
      ∧ ((chainTo (Selection.referring "d" "w" ":w")).connect ⟨2, "a", 0⟩).flatten
          chainSelection 0 =
        (chainTo (Selection.referring "c" "z" "a:missing")).flatten
          chainSelection 0 := by
  let left := chainTo (Selection.referring "c" "z" "a:missing")
  let right := (chainTo (Selection.referring "d" "w" ":w")).connect ⟨2, "a", 0⟩
  have isPropagated : (Selection.propagate left 0 { components := ["x"] }).outcome =
      .ok chainSelection :=
    Outcome.eq_ok_of_toOption (by decide +kernel)
  have isNode : 0 ∈ left.nodes := by decide +kernel
  have packageSame : ∀ id ∈ left.flatten chainSelection 0,
      right.package? id = left.package? id := by
    decide +kernel
  have childrenSame : ∀ id ∈ left.flatten chainSelection 0,
      right.children id = left.children id := by
    decide +kernel
  have agree : AgreeOn (left.ReachesUsed chainSelection 0) left right := {
    package? := fun id reaches => packageSame id ((mem_flatten_iff isNode).mpr reaches)
    children := fun id reaches =>
      childrenSame id ((mem_flatten_iff isNode).mpr reaches) }
  have ignored := propagate_ignores_unused isPropagated agree
  exact ⟨ignored.1, ignored.2.2.2.2.1⟩

end Graph
end PackageFlags
