import PackageFlags.Proofs.Graph.Flattening
import PackageFlags.Proofs.Selection.Closure

/-!
# Packages before their dependencies

When a node is left, all that it uses has been visited. A dependency that is placed
by then stands behind the node, and one that is still to be left is being visited
around it and reaches it. So a dependency that does not reach its dependent back is
placed behind it, and on graphs without cycles this goes for all that a node reaches.
-/

namespace PackageFlags
namespace Order

variable {graph : Graph} {selection : Selection} {id : NodeId}
variable {visited placed : List NodeId} {steps rest : List Step}

/-- The node that a step visits or leaves. -/
def Step.node : Step -> NodeId
  | .enter id => id
  | .leave id => id

/-- How the steps of a walk lie on each other. -/
structure Stacked
    (graph : Graph)
    (selection : Selection)
    (visited : List NodeId)
    (steps : List Step) : Prop where
  /-- What a node uses has been visited or is entered before the node is left. -/
  followed : ∀ above id below, steps = above ++ .leave id :: below →
    ∀ child ∈ selection.usedChildren graph id,
      child ∈ visited ∨ .enter child ∈ above
  /-- A node reaches all that is visited or left before it is left itself. -/
  nested : ∀ above id below, steps = above ++ .leave id :: below →
    ∀ step ∈ above, graph.ReachesUsed selection id step.node

/-- Every node stands in front of what it uses and what does not reach it back. -/
def Arranged
    (graph : Graph)
    (selection : Selection)
    (placed : List NodeId) : Prop :=
  ∀ before id after, placed = before ++ id :: after →
    ∀ child ∈ selection.usedChildren graph id,
      child ∈ after ∨ graph.ReachesUsed selection child id

theorem mem_leaving : id ∈ leaving steps ↔ .leave id ∈ steps := by
  induction steps with
  | nil => simp
  | cons first others othersSame => cases first <;> simp [othersSame]

namespace Stacked

/-- A step that leaves nothing can be taken from the top. -/
theorem tail
    {step : Step}
    (stacked : Stacked graph selection visited (step :: rest))
    (isDone : ∀ child, step = .enter child → child ∈ graph.nodes →
      child ∈ visited) :
    Stacked graph selection visited rest where
  followed := by
    rintro above id below rfl child isUsed
    rcases stacked.followed (step :: above) id below rfl child isUsed with
      isVisited | isEntered
    · exact Or.inl isVisited
    · rcases List.mem_cons.mp isEntered with isFirst | isLater
      · have uses := Selection.mem_usedChildren.mp isUsed
        exact Or.inl (isDone child isFirst.symm uses.mem_nodes)
      · exact Or.inr isLater
  nested := by
    rintro above id below rfl other isAbove
    exact stacked.nested (step :: above) id below rfl other
      (List.mem_cons_of_mem step isAbove)

/-- A node that is entered puts what it uses and its own leaving on top. -/
theorem enter
    (stacked : Stacked graph selection visited (.enter id :: rest)) :
    Stacked graph selection (id :: visited)
      ((selection.usedChildren graph id).map Step.enter ++ .leave id :: rest) := by
  -- a leaving on the new stack is the one of the node, or it was there before
  have isOwn : ∀ above other below,
      (selection.usedChildren graph id).map Step.enter ++ .leave id :: rest =
        above ++ .leave other :: below →
      (above = (selection.usedChildren graph id).map Step.enter ∧ other = id)
        ∨ ∃ between, above = (selection.usedChildren graph id).map Step.enter
            ++ .leave id :: between ∧ rest = between ++ .leave other :: below := by
    intro above other below same
    rcases List.append_eq_append_iff.mp same with
      ⟨between, rfl, isRest⟩ | ⟨between, isEntering, isBelow⟩
    · cases between with
      | nil =>
          cases isRest
          exact Or.inl ⟨List.append_nil _, rfl⟩
      | cons first others =>
          cases isRest
          exact Or.inr ⟨others, rfl, rfl⟩
    · cases between with
      | nil =>
          cases isBelow
          exact Or.inl ⟨(isEntering.trans (List.append_nil _)).symm, rfl⟩
      | cons first others =>
          -- the entering steps would have to leave a node
          cases isBelow
          have isStep : Step.leave other ∈
              (selection.usedChildren graph id).map Step.enter := by
            simp [isEntering]
          obtain ⟨_, _, isLeave⟩ := List.mem_map.mp isStep
          cases isLeave
  exact {
    followed := by
      intro above other below same child isUsed
      rcases isOwn above other below same with ⟨rfl, rfl⟩ | ⟨between, rfl, rfl⟩
      · exact Or.inr (List.mem_map_of_mem isUsed)
      · rcases stacked.followed (.enter id :: between) other below rfl child
          isUsed with isVisited | isEntered
        · exact Or.inl (List.mem_cons_of_mem id isVisited)
        · rcases List.mem_cons.mp isEntered with isFirst | isLater
          · cases isFirst
            exact Or.inl List.mem_cons_self
          · apply Or.inr
            apply List.mem_append_right
            exact List.mem_cons_of_mem _ isLater
    nested := by
      have reachesEntered : ∀ step ∈ (selection.usedChildren graph id).map
          Step.enter, graph.ReachesUsed selection id step.node := by
        intro step isStep
        obtain ⟨child, isUsed, rfl⟩ := List.mem_map.mp isStep
        exact Relation.ReflTransGen.single (Selection.mem_usedChildren.mp isUsed)
      intro above other below same step isAbove
      rcases isOwn above other below same with ⟨rfl, rfl⟩ | ⟨between, rfl, rfl⟩
      · exact reachesEntered step isAbove
      · have reaches : ∀ lower ∈ Step.enter id :: between,
            graph.ReachesUsed selection other lower.node :=
          stacked.nested (.enter id :: between) other below rfl
        have reachesId : graph.ReachesUsed selection other id :=
          reaches (.enter id) List.mem_cons_self
        rcases List.mem_append.mp isAbove with isEntered | isLower
        · exact reachesId.trans (reachesEntered step isEntered)
        · rcases List.mem_cons.mp isLower with rfl | isBetween
          · exact reachesId
          · exact reaches step (List.mem_cons_of_mem _ isBetween) }

/-- What a node uses when it is left stands behind it or reaches it. -/
theorem arranged
    (stacked : Stacked graph selection visited (.leave id :: rest))
    (walking : Walking graph selection visited placed (.leave id :: rest))
    (arranged : Arranged graph selection placed) :
    Arranged graph selection (id :: placed) := by
  intro before other after same child isUsed
  cases before with
  | cons first others =>
      cases same
      exact arranged others other after rfl child isUsed
  | nil =>
      cases same
      have isVisited : child ∈ visited :=
        (stacked.followed [] id rest rfl child isUsed).resolve_right nofun
      rcases List.mem_append.mp ((walking.isVisited child).mp isVisited) with
        isPlaced | isLeaving
      · exact Or.inl isPlaced
      · rcases List.mem_cons.mp isLeaving with rfl | isLower
        · exact Or.inr Relation.ReflTransGen.refl
        · obtain ⟨above, below, rfl⟩ := List.append_of_mem (mem_leaving.mp isLower)
          exact Or.inr (stacked.nested (.leave id :: above) child below rfl
            (.leave id) List.mem_cons_self)

end Stacked

/-- A walk places every node in front of what it uses and what does not reach it
back. -/
theorem arranged_walk
    (walking : Walking graph selection visited placed steps)
    (stacked : Stacked graph selection visited steps)
    (arranged : Arranged graph selection placed) :
    Arranged graph selection (walk graph selection visited placed steps) := by
  fun_induction walk graph selection visited placed steps with
  | case1 visited placed => exact arranged
  | case2 visited placed id rest restArranged =>
      refine restArranged walking.leave (stacked.tail ?_)
        (stacked.arranged walking arranged)
      intro child isEntered
      contradiction
  | case3 visited placed id rest isFresh restArranged =>
      exact restArranged (walking.enter isFresh.2) stacked.enter arranged
  | case4 visited placed id rest isOld restArranged =>
      refine restArranged (walking.skip isOld) (stacked.tail ?_) arranged
      rintro child ⟨⟩ isNode
      by_contra isNew
      exact isOld ⟨isNode, isNew⟩

end Order

namespace Graph

variable {graph : Graph} {selection : Selection} {root : NodeId}

theorem arranged_flatten
    (graph : Graph)
    (selection : Selection)
    (root : NodeId) :
    Order.Arranged graph selection (graph.flatten selection root) := by
  have hasNoLeaving : ∀ above id below,
      [Order.Step.enter root] ≠ above ++ .leave id :: below := by
    intro above id below same
    have isStep : Order.Step.leave id ∈ [Order.Step.enter root] := by simp [same]
    exact absurd (List.mem_singleton.mp isStep) nofun
  apply Order.arranged_walk
  · exact {
      distinct := List.nodup_nil
      isVisited := fun _ => Iff.rfl
      followed := nofun }
  · exact {
      followed := fun above id below same => absurd same (hasNoLeaving above id below)
      nested := fun above id below same => absurd same (hasNoLeaving above id below) }
  · intro before id after same
    simp at same

/-- A node is placed in front of what it uses, unless that reaches it back. -/
theorem idxOf_flatten_lt
    {id child : NodeId}
    (isPlaced : id ∈ graph.flatten selection root)
    (uses : graph.Uses selection id child)
    (noWayBack : ¬ graph.ReachesUsed selection child id) :
    (graph.flatten selection root).idxOf id <
      (graph.flatten selection root).idxOf child := by
  obtain ⟨before, after, isSplit⟩ := List.append_of_mem isPlaced
  have isBehind : child ∈ after :=
    (graph.arranged_flatten selection root before id after isSplit child
      (Selection.mem_usedChildren.mpr uses)).resolve_right noWayBack
  have distinct := graph.flatten_nodup selection root
  rw [isSplit] at distinct ⊢
  obtain ⟨_, _, apart⟩ := List.nodup_append.mp distinct
  have notBefore : id ∉ before := fun isBefore =>
    apart id isBefore id List.mem_cons_self rfl
  have childNotBefore : child ∉ before := fun isBefore =>
    apart child isBefore child (List.mem_cons_of_mem id isBehind) rfl
  have different : id ≠ child := by
    rintro rfl
    exact noWayBack Relation.ReflTransGen.refl
  rw [List.idxOf_append_of_notMem notBefore,
    List.idxOf_append_of_notMem childNotBefore, List.idxOf_cons_self,
    List.idxOf_cons_ne after different]
  omega

/-- Flattening places exactly the nodes that the root reaches over used dependencies,
each once and the root first. A node is placed in front of each dependency that it
uses, unless the dependency reaches it back. So if no placed node reaches itself over
used dependencies, each is placed in front of all that it reaches. -/
theorem flatten_dependencyOrder (isNode : root ∈ graph.nodes) :
    (∀ id, id ∈ graph.flatten selection root ↔
        graph.ReachesUsed selection root id)
      ∧ (graph.flatten selection root).Nodup
      ∧ (graph.flatten selection root).head? = some root
      ∧ (∀ id ∈ graph.flatten selection root,
          ∀ child ∈ graph.flatten selection root,
            graph.Uses selection id child →
            ¬ graph.ReachesUsed selection child id →
            (graph.flatten selection root).idxOf id <
              (graph.flatten selection root).idxOf child)
      ∧ ((∀ id ∈ graph.flatten selection root,
            ¬ Relation.TransGen (graph.Uses selection) id id) →
          ∀ id ∈ graph.flatten selection root, ∀ dependency,
            Relation.TransGen (graph.Uses selection) id dependency →
            (graph.flatten selection root).idxOf id <
              (graph.flatten selection root).idxOf dependency) := by
  refine ⟨fun _ => mem_flatten_iff isNode, graph.flatten_nodup selection root,
    head?_flatten isNode, fun _ isPlaced _ _ => idxOf_flatten_lt isPlaced, ?_⟩
  intro acyclic id isPlaced dependency reaches
  have noWayBack : ∀ middle child, middle ∈ graph.flatten selection root →
      graph.Uses selection middle child →
      ¬ graph.ReachesUsed selection child middle :=
    fun middle child isMiddle isUsed isBack =>
      acyclic middle isMiddle (Relation.TransGen.head' isUsed isBack)
  induction reaches with
  | single isUsed =>
      exact idxOf_flatten_lt isPlaced isUsed (noWayBack _ _ isPlaced isUsed)
  | tail reachesMiddle isUsed middleBehind =>
      have isMiddle := (mem_flatten_iff isNode).mpr
        (((mem_flatten_iff isNode).mp isPlaced).trans reachesMiddle.to_reflTransGen)
      exact Nat.lt_trans middleBehind
        (idxOf_flatten_lt isMiddle isUsed (noWayBack _ _ isMiddle isUsed))

/-- Four packages. The first depends on all others, the third on the first and on the
second, and the second on the fourth. -/
def sharedLater : Graph :=
  (((Graph.empty.add (Selection.referring "a" "x" "b:y")).add
    (Selection.referring "b" "y" ":y")).add (Selection.referring "c" "z" "b:y")).add
      (Selection.referring "d" "w" ":w")
      |>.connect ⟨0, "b", 1⟩ |>.connect ⟨0, "c", 2⟩ |>.connect ⟨0, "d", 3⟩
      |>.connect ⟨2, "b", 1⟩ |>.connect ⟨2, "a", 0⟩ |>.connect ⟨1, "d", 3⟩

/-- All dependencies between these packages, but those on the fourth. -/
def sharedLaterSelection : Selection where
  used := [(0, "b"), (0, "c"), (2, "b"), (2, "a")]

theorem uses_sharedLater {id child : NodeId} :
    sharedLater.Uses sharedLaterSelection id child ↔
      id = 0 ∧ child = 1 ∨ id = 0 ∧ child = 2 ∨ id = 2 ∧ child = 1
        ∨ id = 2 ∧ child = 0 := by
  have areEdges : sharedLater.edges = [⟨1, "d", 3⟩, ⟨2, "a", 0⟩, ⟨2, "b", 1⟩, ⟨0, "d", 3⟩,
      ⟨0, "c", 2⟩, ⟨0, "b", 1⟩] := by
    decide +kernel
  unfold Uses
  rw [areEdges]
  constructor
  · rintro ⟨name, isEdge, isUsed⟩
    simp only [sharedLaterSelection, List.mem_cons, Edge.mk.injEq, Prod.mk.injEq,
      List.not_mem_nil, or_false] at isEdge isUsed
    rcases isUsed with ⟨rfl, rfl⟩ | ⟨rfl, rfl⟩ | ⟨rfl, rfl⟩ | ⟨rfl, rfl⟩ <;> simp_all
  · rintro (⟨rfl, rfl⟩ | ⟨rfl, rfl⟩ | ⟨rfl, rfl⟩ | ⟨rfl, rfl⟩)
    · exact ⟨"b", by simp, by decide⟩
    · exact ⟨"c", by simp, by decide⟩
    · exact ⟨"b", by simp, by decide⟩
    · exact ⟨"a", by simp, by decide⟩

/-- The second package is visited before the third one and still stands behind it, since it
does not lead back. The fourth is left out: edges lead there, but none of them is used. -/
theorem flatten_dependencyOrder_sharedLater :
    0 ∈ sharedLater.nodes
      ∧ (sharedLater.flatten sharedLaterSelection 0).head? = some 0
      ∧ (∀ id, id ∈ sharedLater.flatten sharedLaterSelection 0 ↔
          id = 0 ∨ id = 1 ∨ id = 2)
      ∧ ⟨0, "d", 3⟩ ∈ sharedLater.edges ∧ ⟨1, "d", 3⟩ ∈ sharedLater.edges
      ∧ (sharedLater.flatten sharedLaterSelection 0).idxOf 2 <
          (sharedLater.flatten sharedLaterSelection 0).idxOf 1 := by
  have isNode : 0 ∈ sharedLater.nodes := by decide +kernel
  obtain ⟨areReached, _, isFirst, ordered, _⟩ :=
    @flatten_dependencyOrder _ sharedLaterSelection _ isNode
  have arePlaced : ∀ id, id ∈ sharedLater.flatten sharedLaterSelection 0 ↔
      id = 0 ∨ id = 1 ∨ id = 2 := by
    intro id
    rw [areReached]
    constructor
    · intro reaches
      induction reaches with
      | refl => exact Or.inl rfl
      | tail _ uses _ =>
          rw [uses_sharedLater] at uses
          tauto
    · rintro (rfl | rfl | rfl)
      · exact Relation.ReflTransGen.refl
      · exact .single (uses_sharedLater.mpr (by decide))
      · exact .single (uses_sharedLater.mpr (by decide))
  have noWayBack : ¬ sharedLater.ReachesUsed sharedLaterSelection 1 2 := by
    intro reaches
    rcases Relation.ReflTransGen.cases_head reaches with same | ⟨child, uses, _⟩
    · exact absurd same (by decide)
    · simp [uses_sharedLater] at uses
  refine ⟨isNode, isFirst, arePlaced, by decide +kernel, by decide +kernel, ?_⟩
  apply ordered 2 ((arePlaced 2).mpr (by decide)) 1 ((arePlaced 1).mpr (by decide)) _
    noWayBack
  exact uses_sharedLater.mpr (by decide)

end Graph
end PackageFlags
