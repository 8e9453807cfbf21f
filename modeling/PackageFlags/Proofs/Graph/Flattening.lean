import Mathlib.Data.List.Basic
import Mathlib.Logic.Relation
import PackageFlags.Order

/-!
# What flattening visits

At every moment of the walk a node has been visited exactly if it is placed or is
still to be left, and what visited nodes use has been visited or is still to be
entered. When no steps remain, the placed nodes are therefore those that the root
reaches over used dependencies, each once. The root is left last.
-/

namespace PackageFlags

/-- A node uses another one when an edge leads there under a name that the node uses. -/
def Graph.Uses
    (graph : Graph)
    (selection : Selection)
    (id child : NodeId) : Prop :=
  ∃ name, ⟨id, name, child⟩ ∈ graph.edges ∧ (id, name) ∈ selection.used

theorem Graph.Uses.mem_nodes
    {graph : Graph}
    {selection : Selection}
    {id child : NodeId}
    (uses : graph.Uses selection id child) :
    child ∈ graph.nodes := by
  obtain ⟨name, isEdge, _⟩ := uses
  exact (graph.closed _ isEdge).2

/-- The dependencies that are followed are those that a node uses. -/
theorem Selection.mem_usedChildren
    {selection : Selection}
    {graph : Graph}
    {id child : NodeId} :
    child ∈ selection.usedChildren graph id ↔ graph.Uses selection id child := by
  simp [Selection.usedChildren, List.mem_filterMap, Selection.uses, Graph.Uses,
    Graph.mem_children]

namespace Order

variable {graph : Graph} {selection : Selection} {id : NodeId}
variable {visited placed : List NodeId} {steps rest : List Step}

/-- The nodes that are still to be left, in the order in which they will be. -/
def leaving (steps : List Step) : List NodeId :=
  steps.filterMap fun step =>
    match step with
    | .enter _ => none
    | .leave id => some id

@[simp] theorem leaving_nil : leaving [] = [] := rfl

@[simp] theorem leaving_enter (id : NodeId) (rest : List Step) :
    leaving (.enter id :: rest) = leaving rest := rfl

@[simp] theorem leaving_leave (id : NodeId) (rest : List Step) :
    leaving (.leave id :: rest) = id :: leaving rest := rfl

@[simp] theorem leaving_map_enter (ids : List NodeId) (rest : List Step) :
    leaving (ids.map Step.enter ++ rest) = leaving rest := by
  induction ids with
  | nil => rfl
  | cons first others othersSame =>
      rw [List.map_cons, List.cons_append, leaving_enter, othersSame]

/-- What holds before every step of the walk. -/
structure Walking
    (graph : Graph)
    (selection : Selection)
    (visited placed : List NodeId)
    (steps : List Step) : Prop where
  /-- No node is placed twice. -/
  distinct : (placed ++ leaving steps).Nodup
  /-- A node has been visited if it is placed or still to be left. -/
  isVisited : ∀ id, id ∈ visited ↔ id ∈ placed ++ leaving steps
  /-- What visited nodes use has been visited or is still to be entered. -/
  followed : ∀ id ∈ visited, ∀ child ∈ selection.usedChildren graph id,
    child ∈ visited ∨ .enter child ∈ steps

namespace Walking

theorem leave
    (walking : Walking graph selection visited placed (.leave id :: rest)) :
    Walking graph selection visited (id :: placed) rest := by
  have same : List.Perm (id :: placed ++ leaving rest)
      (placed ++ leaving (.leave id :: rest)) :=
    List.perm_middle.symm
  exact {
    distinct := same.nodup_iff.mpr walking.distinct
    isVisited := fun other => (walking.isVisited other).trans same.mem_iff.symm
    followed := by
      intro other isVisited child isUsed
      rcases walking.followed other isVisited child isUsed with isDone | isStep
      · exact Or.inl isDone
      · exact Or.inr ((List.mem_cons.mp isStep).resolve_left nofun) }

theorem enter
    (walking : Walking graph selection visited placed (.enter id :: rest))
    (isNew : id ∉ visited) :
    Walking graph selection (id :: visited) placed
      ((selection.usedChildren graph id).map Step.enter ++ .leave id :: rest) := by
  have same : List.Perm (placed ++ leaving ((selection.usedChildren graph id).map
      Step.enter ++ .leave id :: rest)) (id :: (placed ++ leaving rest)) := by
    rw [leaving_map_enter, leaving_leave]
    exact List.perm_middle
  have notPlaced : id ∉ placed ++ leaving rest := fun member =>
    isNew ((walking.isVisited id).mpr member)
  exact {
    distinct := same.nodup_iff.mpr
      (List.nodup_cons.mpr ⟨notPlaced, walking.distinct⟩)
    isVisited := by
      intro other
      rw [same.mem_iff, List.mem_cons, List.mem_cons, walking.isVisited other,
        leaving_enter]
    followed := by
      intro other isVisited child isUsed
      rcases List.mem_cons.mp isVisited with rfl | wasVisited
      · apply Or.inr
        apply List.mem_append_left
        exact List.mem_map_of_mem isUsed
      · rcases walking.followed other wasVisited child isUsed with
          isDone | isStep
        · exact Or.inl (List.mem_cons_of_mem id isDone)
        · rcases List.mem_cons.mp isStep with isFirst | isLater
          · cases isFirst
            exact Or.inl List.mem_cons_self
          · apply Or.inr
            apply List.mem_append_right
            exact List.mem_cons_of_mem _ isLater }

theorem skip
    (walking : Walking graph selection visited placed (.enter id :: rest))
    (isOld : ¬ (id ∈ graph.nodes ∧ id ∉ visited)) :
    Walking graph selection visited placed rest where
  distinct := walking.distinct
  isVisited := walking.isVisited
  followed := by
    intro other isVisited child isUsed
    rcases walking.followed other isVisited child isUsed with isDone | isStep
    · exact Or.inl isDone
    · rcases List.mem_cons.mp isStep with isFirst | isLater
      · cases isFirst
        apply Or.inl
        by_contra isNew
        exact isOld ⟨(Selection.mem_usedChildren.mp isUsed).mem_nodes, isNew⟩
      · exact Or.inr isLater

/-- The nodes that a walk places in the end. -/
structure Placed
    (graph : Graph)
    (selection : Selection)
    (visited : List NodeId)
    (steps : List Step)
    (placed : List NodeId) : Prop where
  /-- No node is placed twice. -/
  distinct : placed.Nodup
  /-- All visited nodes are placed. -/
  visited : visited ⊆ placed
  /-- All nodes that were to be entered are placed. -/
  entered : ∀ id, .enter id ∈ steps → id ∈ graph.nodes → id ∈ placed
  /-- What placed nodes use is placed. -/
  closed : ∀ id ∈ placed, ∀ child ∈ selection.usedChildren graph id,
    child ∈ placed

theorem outcome
    (walking : Walking graph selection visited placed steps) :
    Placed graph selection visited steps
      (walk graph selection visited placed steps) := by
  -- each step keeps `Walking`, and what the rest of the walk places is enough
  fun_induction walk graph selection visited placed steps with
  | case1 visited placed =>
      have isVisited : ∀ id, id ∈ visited ↔ id ∈ placed := by
        simpa using walking.isVisited
      exact {
        distinct := by simpa using walking.distinct
        visited := fun id => (isVisited id).mp
        entered := nofun
        closed := fun id isPlaced child isUsed =>
          (isVisited child).mp ((walking.followed id ((isVisited id).mpr isPlaced)
            child isUsed).resolve_right nofun) }
  | case2 visited placed id rest restPlaced =>
      have done := restPlaced walking.leave
      exact {
        distinct := done.distinct
        visited := done.visited
        entered := fun other isStep =>
          done.entered other ((List.mem_cons.mp isStep).resolve_left nofun)
        closed := done.closed }
  | case3 visited placed id rest isFresh restPlaced =>
      have done := restPlaced (walking.enter isFresh.2)
      exact {
        distinct := done.distinct
        visited := List.Subset.trans (List.subset_cons_self id visited)
          done.visited
        entered := by
          intro other isStep isNode
          rcases List.mem_cons.mp isStep with isFirst | isLater
          · cases isFirst
            exact done.visited List.mem_cons_self
          · refine done.entered other ?_ isNode
            apply List.mem_append_right
            exact List.mem_cons_of_mem _ isLater
        closed := done.closed }
  | case4 visited placed id rest isOld restPlaced =>
      have done := restPlaced (walking.skip isOld)
      exact {
        distinct := done.distinct
        visited := done.visited
        entered := by
          intro other isStep isNode
          rcases List.mem_cons.mp isStep with isFirst | isLater
          · cases isFirst
            apply done.visited
            by_contra isNew
            exact isOld ⟨isNode, isNew⟩
          · exact done.entered other isLater isNode
        closed := done.closed }

end Walking

/-- Whatever holds of the nodes in a walk and is passed on over used dependencies
holds of all nodes that the walk places. -/
theorem walk_induction
    {holds : NodeId → Prop}
    (closed : ∀ id child, holds id → child ∈ selection.usedChildren graph id →
      holds child)
    (holdsPlaced : ∀ id ∈ placed, holds id)
    (holdsSteps : ∀ id, .enter id ∈ steps ∨ .leave id ∈ steps → holds id) :
    ∀ id ∈ walk graph selection visited placed steps, holds id := by
  fun_induction walk graph selection visited placed steps with
  | case1 visited placed => exact holdsPlaced
  | case2 visited placed id rest restHolds =>
      refine restHolds ?_ fun other isStep => holdsSteps other
        (isStep.imp (List.mem_cons_of_mem _) (List.mem_cons_of_mem _))
      exact List.forall_mem_cons.mpr
        ⟨holdsSteps id (Or.inr List.mem_cons_self), holdsPlaced⟩
  | case3 visited placed id rest isFresh restHolds =>
      have holdsId := holdsSteps id (Or.inl List.mem_cons_self)
      refine restHolds holdsPlaced ?_
      rintro other (isEntered | isLeft)
      · rcases List.mem_append.mp isEntered with isChild | isLater
        · obtain ⟨child, isUsed, same⟩ := List.mem_map.mp isChild
          cases same
          exact closed id other holdsId isUsed
        · apply holdsSteps other
          have isRest := (List.mem_cons.mp isLater).resolve_left nofun
          exact Or.inl (List.mem_cons_of_mem _ isRest)
      · rcases List.mem_append.mp isLeft with isChild | isLater
        · obtain ⟨child, _, same⟩ := List.mem_map.mp isChild
          cases same
        · rcases List.mem_cons.mp isLater with isSelf | isRest
          · cases isSelf
            exact holdsId
          · exact holdsSteps other (Or.inr (List.mem_cons_of_mem _ isRest))
  | case4 visited placed id rest isOld restHolds =>
      exact restHolds holdsPlaced fun other isStep => holdsSteps other
        (isStep.imp (List.mem_cons_of_mem _) (List.mem_cons_of_mem _))

/-- A node that is left last is placed first. -/
theorem walk_append_leave (last : NodeId) :
    walk graph selection visited placed (steps ++ [.leave last]) =
      last :: walk graph selection visited placed steps := by
  fun_induction walk graph selection visited placed steps with
  | case1 visited placed => simp [walk]
  | case2 visited placed id rest restSame =>
      rw [List.cons_append, walk, restSame]
  | case3 visited placed id rest isFresh restSame =>
      rw [List.cons_append, walk, if_pos isFresh, ← restSame, List.append_assoc,
        List.cons_append]
  | case4 visited placed id rest isOld restSame =>
      rw [List.cons_append, walk, if_neg isOld, restSame]

end Order

namespace Graph

variable {graph : Graph} {selection : Selection} {root : NodeId}

/-- A node is reached over used dependencies. -/
def ReachesUsed
    (graph : Graph)
    (selection : Selection) : NodeId -> NodeId -> Prop :=
  Relation.ReflTransGen (graph.Uses selection)

theorem flatten_nodup
    (graph : Graph)
    (selection : Selection)
    (root : NodeId) :
    (graph.flatten selection root).Nodup := by
  have start : Order.Walking graph selection [] [] [.enter root] := {
    distinct := List.nodup_nil
    isVisited := fun _ => Iff.rfl
    followed := nofun }
  exact start.outcome.distinct

/-- Flattening places the nodes that the root reaches over used dependencies. -/
theorem mem_flatten_iff
    (isNode : root ∈ graph.nodes)
    {id : NodeId} :
    id ∈ graph.flatten selection root ↔ graph.ReachesUsed selection root id := by
  have start : Order.Walking graph selection [] [] [.enter root] := {
    distinct := List.nodup_nil
    isVisited := fun _ => Iff.rfl
    followed := nofun }
  constructor
  · intro isPlaced
    refine Order.walk_induction (fun _ _ reaches isUsed =>
      reaches.tail (Selection.mem_usedChildren.mp isUsed)) nofun ?_ id isPlaced
    rintro other (isRoot | isRoot)
    · cases List.mem_singleton.mp isRoot
      exact Relation.ReflTransGen.refl
    · cases List.mem_singleton.mp isRoot
  · intro reaches
    induction reaches with
    | refl => exact start.outcome.entered root List.mem_cons_self isNode
    | tail _ uses isPlaced =>
        exact start.outcome.closed _ isPlaced _ (Selection.mem_usedChildren.mpr uses)

/-- Flattening places nodes of the graph only. -/
theorem mem_nodes_of_mem_flatten
    {id : NodeId}
    (isPlaced : id ∈ graph.flatten selection root) :
    id ∈ graph.nodes := by
  by_cases isNode : root ∈ graph.nodes
  · have reaches := (mem_flatten_iff isNode).mp isPlaced
    induction reaches with
    | refl => exact isNode
    | tail _ uses _ => exact uses.mem_nodes
  · have notFresh : ¬ (root ∈ graph.nodes ∧ root ∉ ([] : List NodeId)) :=
      fun fresh => isNode fresh.1
    unfold flatten at isPlaced
    rw [Order.walk, if_neg notFresh, Order.walk] at isPlaced
    exact absurd isPlaced List.not_mem_nil

/-- Flattening places the root first. -/
theorem head?_flatten (isNode : root ∈ graph.nodes) :
    (graph.flatten selection root).head? = some root := by
  have isFresh : root ∈ graph.nodes ∧ root ∉ ([] : List NodeId) :=
    ⟨isNode, List.not_mem_nil⟩
  unfold flatten
  rw [Order.walk, if_pos isFresh, Order.walk_append_leave, List.head?_cons]

end Graph
end PackageFlags
