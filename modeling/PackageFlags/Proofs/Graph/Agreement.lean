import PackageFlags.Proofs.Graph.Embedding
import PackageFlags.Proofs.Graph.Reachability

/-!
# Graphs that agree on some nodes

Two graphs agree on a node that has the same package and the same dependencies in
both. When they agree on nodes that no edge leads out of, then propagating from one
of these nodes, flattening from it and merging the settings of such nodes give the
same in both graphs.
-/

namespace PackageFlags

namespace Graph

/-- Nodes have the same packages and dependencies in two graphs. -/
structure AgreeOn
    (inside : NodeId -> Prop)
    (left right : Graph) : Prop where
  package? : ∀ id, inside id → right.package? id = left.package? id
  children : ∀ id, inside id → right.children id = left.children id

/-- No edge leads out of some nodes. -/
def ClosedUnderEdges (inside : NodeId -> Prop) (graph : Graph) : Prop :=
  ∀ id child, inside id → graph.Adjacent id child → inside child

theorem ClosedUnderEdges.underUse
    {inside : NodeId -> Prop}
    {graph : Graph}
    (closed : ClosedUnderEdges inside graph)
    (uses : NodeId -> String -> Prop) :
    ClosedUnderUse inside graph uses :=
  fun id dependency child isInside _ isMember =>
    closed id child isInside ⟨dependency, isMember⟩

/-- What is reached from such nodes is one of them. -/
theorem ClosedUnderEdges.inside_of_reaches
    {inside : NodeId -> Prop}
    {graph : Graph}
    (closed : ClosedUnderEdges inside graph)
    {id target : NodeId}
    (isInside : inside id)
    (reaches : graph.Reaches id target) :
    inside target := by
  induction reaches with
  | refl => exact isInside
  | tail _ isStep isReached => exact closed _ _ isReached isStep

namespace AgreeOn

variable {inside : NodeId -> Prop} {left right : Graph}

/-- Nodes on which two graphs agree are found in both where they are. -/
theorem embeds (agree : AgreeOn inside left right) :
    Embeds id inside left right where
  injective := Function.injective_id
  package? := agree.package?
  children := fun node isInside => by
    rw [Prod.map_id, List.map_id]
    exact agree.children node isInside

/-! ## Reaching -/

/-- The same nodes are reached in both graphs. -/
theorem reaches_iff
    (agree : AgreeOn inside left right)
    (closed : ClosedUnderEdges inside left)
    {id target : NodeId}
    (isInside : inside id) :
    right.Reaches id target ↔ left.Reaches id target := by
  have adjacent : ∀ {source}, inside source →
      (right.Adjacent source = left.Adjacent source) := by
    intro source isSource
    unfold Adjacent
    rw [agree.children source isSource]
  constructor
  · intro reaches
    induction reaches with
    | refl => exact Relation.ReflTransGen.refl
    | tail _ isStep reached =>
        rw [adjacent (closed.inside_of_reaches isInside reached)] at isStep
        exact reached.tail isStep
  · intro reaches
    induction reaches with
    | refl => exact Relation.ReflTransGen.refl
    | tail earlier isStep reached =>
        rw [← adjacent (closed.inside_of_reaches isInside earlier)] at isStep
        exact reached.tail isStep

/-! ## Propagating, flattening and merging -/

/-- Propagating gives the same in both graphs, warnings and failures included. -/
theorem propagate_eq
    (agree : AgreeOn inside left right)
    (closed : ClosedUnderEdges inside left)
    {root : NodeId}
    (isInside : inside root)
    (wanted : Wanted) :
    Selection.propagate right root wanted =
      Selection.propagate left root wanted := by
  by_cases isNode : root ∈ left.nodes
  · have closedUnderUse := closed.underUse
      (Selection.propagate left root wanted).Uses
    have same := agree.embeds.propagate_eq closedUnderUse isInside isNode
    rwa [Selection.Propagation.relocate_id] at same
  · have isMissing : left.package? root = none := by
      rwa [Graph.mem_nodes_iff, ← Option.ne_none_iff_exists', not_not] at isNode
    have isMissingRight := (agree.package? root isInside).trans isMissing
    simp only [Selection.propagate, Selection.visit, isMissing, isMissingRight]

/-- Flattening gives the same order in both graphs. -/
theorem flatten_eq
    (agree : AgreeOn inside left right)
    (closed : ClosedUnderEdges inside left)
    {root : NodeId}
    (isInside : inside root)
    (selection : Selection) :
    right.flatten selection root = left.flatten selection root := by
  have closedUnderUse := closed.underUse fun id dependency =>
    selection.uses id dependency = true
  have same := agree.embeds.flatten_eq closedUnderUse isInside
  rwa [Selection.relocate_id, List.map_id] at same

/-- Merging the settings of nodes gives the same flags in both graphs. -/
theorem aggregate_eq
    (agree : AgreeOn inside left right)
    {order : List NodeId}
    (areInside : ∀ id ∈ order, inside id)
    (selection : Selection)
    (override : Option Path) :
    right.aggregate selection order override =
      left.aggregate selection order override := by
  have packageSame : ∀ id ∈ order, right.package? id = left.package? id :=
    fun id isPlaced => agree.package? id (areInside id isPlaced)
  have settingsSame : ∀ id ∈ order, right.settingsAt selection override id =
      left.settingsAt selection override id := by
    intro id isPlaced
    unfold Graph.settingsAt
    rw [packageSame id isPlaced]
  rw [← aggregate_congr settingsSame packageSame, List.map_id']

end AgreeOn

end Graph
end PackageFlags
