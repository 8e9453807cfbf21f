import PackageFlags.Flags.Merging
import PackageFlags.Proofs.Graph.Flattening
import PackageFlags.Proofs.Selection.Closure

/-!
# Graphs inside other graphs

A graph is found inside another one when its nodes can be relocated to nodes there
that have the same packages and, relocated, the same dependencies. This is asked of
some nodes only. When these have among them what a walk over the graph comes to, then
propagating, flattening and merging give the same inside the other graph, whatever
that contains besides.
-/

namespace PackageFlags

namespace Selection

variable {graph : Graph} {warnings : List Warning} {selection : Selection}
variable {demand : Demand} {rest : List Demand}

/-! ## Steps of propagation -/

/-- A demand on a dependency that is missing is passed over with a warning. -/
theorem meet_of_missing
    (isMissing : graph.child? demand.node demand.dependency = none) :
    meet graph warnings selection (demand :: rest) =
      meet graph (warnings ++ [warningFor graph demand]) selection rest := by
  rw [meet, isMissing]

/-- A demand that cannot be met ends the walk. -/
theorem meet_of_error
    {child : NodeId}
    {failure : Failure}
    (isChild : graph.child? demand.node demand.dependency = some child)
    (fails : visit graph (selection.use demand.node demand.dependency) child
      demand.wanted = .error failure) :
    meet graph warnings selection (demand :: rest) =
      { warnings, outcome := .error failure } := by
  rw [meet, isChild]
  dsimp only
  split
  · rename_i other isOther
    cases fails.symm.trans isOther
    rfl
  · rename_i isVisited
    cases fails.symm.trans isVisited

/-- A demand that is met puts those of the visit in front. -/
theorem meet_of_visit
    {child : NodeId}
    {next : Selection}
    {more : List Demand}
    (isChild : graph.child? demand.node demand.dependency = some child)
    (isVisited : visit graph (selection.use demand.node demand.dependency) child
      demand.wanted = .ok (next, more)) :
    meet graph warnings selection (demand :: rest) =
      meet graph warnings next (more ++ rest) := by
  rw [meet, isChild]
  dsimp only
  split
  · rename_i fails
    cases isVisited.symm.trans fails
  · rename_i isOther
    cases isVisited.symm.trans isOther
    rfl

/-- A visit gives rise to demands of the node that is visited. -/
theorem node_of_visit
    {id : NodeId}
    {wanted : Wanted}
    {next : Selection}
    {more : List Demand}
    (isVisited : visit graph selection id wanted = .ok (next, more)) :
    ∀ demand ∈ more, demand.node = id := by
  obtain ⟨package, added, _, _, _, rfl⟩ := visit_eq_ok isVisited
  exact fun _ => node_of_mem_demandsOf

/-- Dependencies that are used stay used. -/
theorem used_subset_of_meet
    {demands : List Demand}
    {final : Selection}
    (isMet : (meet graph warnings selection demands).outcome = .ok final) :
    selection.used ⊆ final.used := by
  fun_induction meet graph warnings selection demands with
  | case1 warnings selection =>
      cases isMet
      exact List.Subset.refl _
  | case2 warnings selection demand rest isMissing restSubset =>
      exact restSubset isMet
  | case3 => simp at isMet
  | case4 warnings selection demand rest child isChild next more isVisited
      restSubset =>
      obtain ⟨_, _, _, _, rfl, _⟩ := visit_eq_ok isVisited
      intro entry isUsed
      exact restSubset isMet (mem_used_use.mpr (Or.inl isUsed))

/-- A dependency is used by a walk over the graph. Of a walk that fails this is said
of every dependency. -/
def Propagation.Uses
    (propagation : Propagation)
    (node : NodeId)
    (dependency : String) : Prop :=
  ∀ selection, propagation.outcome = .ok selection →
    selection.uses node dependency = true

theorem Propagation.uses_of_error
    {failure : Failure}
    {node : NodeId}
    {dependency : String} :
    (Propagation.mk warnings (.error failure)).Uses node dependency := by
  intro final isMet
  cases isMet

/-- The dependency that is met next is used. -/
theorem uses_of_visit
    {child : NodeId}
    {next : Selection}
    {more : List Demand}
    (isVisited : visit graph (selection.use demand.node demand.dependency) child
      demand.wanted = .ok (next, more)) :
    (meet graph warnings next (more ++ rest)).Uses demand.node
      demand.dependency := by
  intro final isMet
  obtain ⟨_, _, _, _, rfl, _⟩ := visit_eq_ok isVisited
  apply decide_eq_true
  exact used_subset_of_meet isMet (mem_used_use.mpr (Or.inr ⟨rfl, rfl⟩))

/-! ## Relocating selections -/

/-- A selection with its nodes relocated. -/
def relocate (place : NodeId -> NodeId) (selection : Selection) : Selection where
  selected := selection.selected.map (Prod.map place id)
  used := selection.used.map (Prod.map place id)

/-- A demand with its node relocated. -/
def Demand.relocate (place : NodeId -> NodeId) (demand : Demand) : Demand :=
  { demand with node := place demand.node }

/-- What a walk came to, with its nodes relocated. -/
def Propagation.relocate
    (place : NodeId -> NodeId)
    (propagation : Propagation) : Propagation :=
  { propagation with outcome := propagation.outcome.map (Selection.relocate place) }

@[simp] theorem relocate_id (selection : Selection) :
    selection.relocate id = selection := by
  simp [relocate]

@[simp] theorem relocate_empty (place : NodeId -> NodeId) :
    empty.relocate place = empty := rfl

@[simp] theorem Propagation.relocate_id (propagation : Propagation) :
    propagation.relocate id = propagation := by
  obtain ⟨warnings, outcome⟩ := propagation
  cases outcome <;> simp [relocate, Except.map]

section Relocate

variable {place : NodeId -> NodeId}

theorem components_relocate
    (injective : Function.Injective place)
    (selection : Selection)
    (id : NodeId) :
    (selection.relocate place).components (place id) = selection.components id := by
  simp [components, relocate, List.filterMap_map, injective.eq_iff]

theorem uses_relocate
    (injective : Function.Injective place)
    (selection : Selection)
    (id : NodeId)
    (dependency : String) :
    (selection.relocate place).uses (place id) dependency =
      selection.uses id dependency := by
  simp [uses, relocate, injective.eq_iff]

theorem use_relocate
    (injective : Function.Injective place)
    (selection : Selection)
    (id : NodeId)
    (dependency : String) :
    (selection.relocate place).use (place id) dependency =
      (selection.use id dependency).relocate place := by
  unfold use
  rw [uses_relocate injective]
  split <;> simp [relocate]

theorem select_relocate
    (selection : Selection)
    (id : NodeId)
    (names : List String) :
    (selection.relocate place).select (place id) names =
      (selection.select id names).relocate place := by
  simp [select, relocate]

theorem demandsOf_relocate
    (id : NodeId)
    (package : Package)
    (added : List String) :
    demandsOf (place id) package added =
      (demandsOf id package added).map (Demand.relocate place) := by
  simp [demandsOf, Demand.relocate]

end Relocate
end Selection

namespace Order

/-- A step with its node relocated. -/
def Step.relocate (place : NodeId -> NodeId) : Step -> Step
  | .enter id => .enter (place id)
  | .leave id => .leave (place id)

end Order

namespace Graph

/-- What is found under a name among entries whose values are relocated. -/
theorem lookup_relocate
    (place : NodeId -> NodeId)
    (children : List (String × NodeId))
    (name : String) :
    (children.map (Prod.map id place)).lookup name =
      (children.lookup name).map place := by
  induction children with
  | nil => rfl
  | cons first rest restSame =>
      rw [List.map_cons, List.lookup_cons, List.lookup_cons, restSame]
      simp only [Prod.map, id_eq]
      split <;> rfl

/-- Nodes of one graph are found inside another one when they are relocated. -/
structure Embeds
    (place : NodeId -> NodeId)
    (inside : NodeId -> Prop)
    (left right : Graph) : Prop where
  /-- No two nodes are relocated to the same one. -/
  injective : Function.Injective place
  /-- The packages are the same. -/
  package? : ∀ node, inside node → right.package? (place node) = left.package? node
  /-- The dependencies are the same, relocated. -/
  children : ∀ node, inside node →
    right.children (place node) = (left.children node).map (Prod.map id place)

/-- What is used among some nodes leads to others of them. -/
def ClosedUnderUse
    (inside : NodeId -> Prop)
    (graph : Graph)
    (uses : NodeId -> String -> Prop) : Prop :=
  ∀ id dependency child, inside id → uses id dependency →
    (dependency, child) ∈ graph.children id → inside child

theorem closedUnderUse_all (graph : Graph) (uses : NodeId -> String -> Prop) :
    ClosedUnderUse (fun _ => True) graph uses :=
  fun _ _ _ _ _ _ => trivial

/-- Nodes with the same settings and packages, taken in order, give the same
flags. -/
theorem aggregate_congr
    {left right : Graph}
    {place : NodeId -> NodeId}
    {order : List NodeId}
    {selection relocated : Selection}
    {override : Option Path}
    (settingsSame : ∀ id ∈ order,
      right.settingsAt relocated override (place id) =
        left.settingsAt selection override id)
    (packageSame : ∀ id ∈ order, right.package? (place id) = left.package? id) :
    right.aggregate relocated (order.map place) override =
      left.aggregate selection order override := by
  have allSame : (order.map place).mapM (right.settingsAt relocated override) =
      order.mapM (left.settingsAt selection override) := by
    induction order with
    | nil => rfl
    | cons first rest restSame =>
        obtain ⟨firstSettings, restSettings⟩ := List.forall_mem_cons.mp settingsSame
        obtain ⟨_, restPackages⟩ := List.forall_mem_cons.mp packageSame
        rw [List.map_cons, List.mapM_cons, List.mapM_cons,
          restSame restSettings restPackages, firstSettings]
  have versionSame : right.versionOf (order.map place) = left.versionOf order := by
    unfold versionOf
    cases order with
    | nil => rfl
    | cons first rest => simp [packageSame first List.mem_cons_self]
  unfold aggregate
  rw [allSame, versionSame]

namespace Embeds

variable {place : NodeId -> NodeId} {inside : NodeId -> Prop} {left right : Graph}
variable {selection : Selection} {id : NodeId}

theorem child?
    (embeds : Embeds place inside left right)
    (isInside : inside id)
    (name : String) :
    right.child? (place id) name = (left.child? id name).map place := by
  unfold Graph.child?
  rw [embeds.children id isInside, lookup_relocate]

theorem mem_nodes_iff
    (embeds : Embeds place inside left right)
    (isInside : inside id) :
    place id ∈ right.nodes ↔ id ∈ left.nodes := by
  rw [Graph.mem_nodes_iff, Graph.mem_nodes_iff, embeds.package? id isInside]

/-! ## Propagating -/

/-- A node is visited alike inside both graphs. -/
theorem visit_eq
    (embeds : Embeds place inside left right)
    (isInside : inside id)
    (isNode : id ∈ left.nodes)
    (selection : Selection)
    (wanted : Wanted) :
    Selection.visit right (selection.relocate place) (place id) wanted =
      (Selection.visit left selection id wanted).map
        (Prod.map (Selection.relocate place)
          (List.map (Selection.Demand.relocate place))) := by
  obtain ⟨package, isPackage⟩ := Graph.mem_nodes_iff.mp isNode
  unfold Selection.visit
  rw [embeds.package? id isInside, isPackage,
    Selection.components_relocate embeds.injective]
  dsimp only
  cases Selection.additions package (selection.components id)
      (wanted.names package) with
  | error failure => rfl
  | ok added =>
      dsimp only
      rw [Selection.select_relocate, Selection.demandsOf_relocate]
      rfl

theorem warningFor_eq
    (embeds : Embeds place inside left right)
    {demand : Selection.Demand}
    (isInside : inside demand.node) :
    Selection.warningFor right (demand.relocate place) =
      Selection.warningFor left demand := by
  unfold Selection.warningFor
  rw [← embeds.package? demand.node isInside]
  rfl

/-- What a demand leads to is visited alike inside both graphs. -/
theorem visit_child_eq
    (embeds : Embeds place inside left right)
    {demand : Selection.Demand}
    {child : NodeId}
    (isChild : left.child? demand.node demand.dependency = some child)
    (isChildInside : inside child)
    (selection : Selection) :
    Selection.visit right
        ((selection.relocate place).use (place demand.node) demand.dependency)
        (place child) demand.wanted =
      (Selection.visit left (selection.use demand.node demand.dependency) child
        demand.wanted).map
          (Prod.map (Selection.relocate place)
            (List.map (Selection.Demand.relocate place))) := by
  rw [Selection.use_relocate embeds.injective]
  exact embeds.visit_eq isChildInside
    (mem_nodes_of_mem_children (mem_children_of_child? isChild)) _ _

/-- Demands are met alike inside both graphs. -/
theorem meet_eq
    (embeds : Embeds place inside left right)
    {warnings : List Warning}
    {demands : List Selection.Demand}
    (closed : ClosedUnderUse inside left
      (Selection.meet left warnings selection demands).Uses)
    (areInside : ∀ demand ∈ demands, inside demand.node) :
    Selection.meet right warnings (selection.relocate place)
        (demands.map (Selection.Demand.relocate place)) =
      (Selection.meet left warnings selection demands).relocate place := by
  revert closed
  fun_induction Selection.meet left warnings selection demands with
  | case1 warnings selection =>
      intro closed
      rw [List.map_nil, Selection.meet]
      rfl
  | case2 warnings selection demand rest isMissing restSame =>
      intro closed
      obtain ⟨isInside, restInside⟩ := List.forall_mem_cons.mp areInside
      have isMissingRight : right.child? (demand.relocate place).node
          (demand.relocate place).dependency = none := by
        rw [← Option.map_none place, ← isMissing]
        exact embeds.child? isInside demand.dependency
      rw [List.map_cons, Selection.meet_of_missing isMissingRight,
        embeds.warningFor_eq isInside]
      exact restSame restInside closed
  | case3 warnings selection demand rest child isChild failure fails =>
      intro closed
      obtain ⟨isInside, _⟩ := List.forall_mem_cons.mp areInside
      have isChildInside : inside child :=
        closed demand.node demand.dependency child isInside
          Selection.Propagation.uses_of_error (mem_children_of_child? isChild)
      have isChildRight := embeds.child? isInside demand.dependency
      have failsRight := embeds.visit_child_eq isChild isChildInside selection
      rw [isChild] at isChildRight
      rw [fails] at failsRight
      rw [List.map_cons]
      exact Selection.meet_of_error isChildRight failsRight
  | case4 warnings selection demand rest child isChild next more isVisited
      restSame =>
      intro closed
      obtain ⟨isInside, restInside⟩ := List.forall_mem_cons.mp areInside
      have isChildInside : inside child :=
        closed demand.node demand.dependency child isInside
          (Selection.uses_of_visit isVisited) (mem_children_of_child? isChild)
      have moreInside : ∀ other ∈ more ++ rest, inside other.node := by
        refine List.forall_mem_append.mpr ⟨fun other isDemand => ?_, restInside⟩
        rw [Selection.node_of_visit isVisited other isDemand]
        exact isChildInside
      have isChildRight := embeds.child? isInside demand.dependency
      have isVisitedRight := embeds.visit_child_eq isChild isChildInside selection
      rw [isChild] at isChildRight
      rw [isVisited] at isVisitedRight
      rw [List.map_cons, Selection.meet_of_visit isChildRight isVisitedRight,
        ← List.map_append]
      exact restSame moreInside closed

/-- Propagating gives the same inside both graphs, warnings and failures
included. -/
theorem propagate_eq
    (embeds : Embeds place inside left right)
    {root : NodeId}
    {wanted : Wanted}
    (closed : ClosedUnderUse inside left
      (Selection.propagate left root wanted).Uses)
    (isInside : inside root)
    (isNode : root ∈ left.nodes) :
    Selection.propagate right (place root) wanted =
      (Selection.propagate left root wanted).relocate place := by
  have visitSame := embeds.visit_eq isInside isNode Selection.empty wanted
  rw [Selection.relocate_empty] at visitSame
  unfold Selection.propagate at closed ⊢
  rw [visitSame]
  cases isVisited : Selection.visit left Selection.empty root wanted with
  | error failure => rfl
  | ok visited =>
      obtain ⟨first, demands⟩ := visited
      rw [isVisited] at closed
      refine embeds.meet_eq closed fun demand isDemand => ?_
      rw [Selection.node_of_visit isVisited demand isDemand]
      exact isInside

/-! ## Flattening -/

theorem usedChildren_eq
    (embeds : Embeds place inside left right)
    (isInside : inside id)
    (selection : Selection) :
    (selection.relocate place).usedChildren right (place id) =
      (selection.usedChildren left id).map place := by
  unfold Selection.usedChildren
  rw [embeds.children id isInside, List.filterMap_map, List.map_filterMap]
  refine List.filterMap_congr fun entry _ => ?_
  simp only [Function.comp, Prod.map, id_eq,
    Selection.uses_relocate embeds.injective]
  split <;> rfl

/-- The same nodes are placed inside both graphs. -/
theorem walk_eq
    (embeds : Embeds place inside left right)
    (closed : ClosedUnderUse inside left fun id dependency =>
      selection.uses id dependency = true)
    {visited placed : List NodeId}
    {steps : List Order.Step}
    (areInside : ∀ id, .enter id ∈ steps → inside id) :
    Order.walk right (selection.relocate place) (visited.map place)
        (placed.map place) (steps.map (Order.Step.relocate place)) =
      (Order.walk left selection visited placed steps).map place := by
  fun_induction Order.walk left selection visited placed steps with
  | case1 visited placed => rw [List.map_nil, Order.walk]
  | case2 visited placed id rest restSame =>
      rw [List.map_cons, Order.Step.relocate, Order.walk]
      exact restSame fun other isStep =>
        areInside other (List.mem_cons_of_mem _ isStep)
  | case3 visited placed id rest isFresh restSame =>
      have isInside := areInside id List.mem_cons_self
      have isFreshRight : place id ∈ right.nodes ∧ place id ∉ visited.map place := by
        rw [embeds.mem_nodes_iff isInside,
          List.mem_map_of_injective embeds.injective]
        exact isFresh
      have enterUsed : (selection.usedChildren left id).map
            (Order.Step.relocate place ∘ Order.Step.enter) =
          (selection.usedChildren left id).map (Order.Step.enter ∘ place) := rfl
      rw [List.map_cons, Order.Step.relocate, Order.walk, if_pos isFreshRight,
        embeds.usedChildren_eq isInside]
      rw [← restSame, List.map_append, List.map_map, List.map_map, enterUsed]
      · rfl
      · intro other isStep
        rcases List.mem_append.mp isStep with isChild | isLater
        · obtain ⟨child, isUsed, same⟩ := List.mem_map.mp isChild
          cases same
          obtain ⟨name, isEdge, isNamed⟩ := Selection.mem_usedChildren.mp isUsed
          exact closed id name other isInside (decide_eq_true isNamed)
            (mem_children.mpr isEdge)
        · have isRest := (List.mem_cons.mp isLater).resolve_left (by simp)
          exact areInside other (List.mem_cons_of_mem _ isRest)
  | case4 visited placed id rest isOld restSame =>
      have isInside := areInside id List.mem_cons_self
      have isOldRight :
          ¬ (place id ∈ right.nodes ∧ place id ∉ visited.map place) := by
        rw [embeds.mem_nodes_iff isInside,
          List.mem_map_of_injective embeds.injective]
        exact isOld
      rw [List.map_cons, Order.Step.relocate, Order.walk, if_neg isOldRight]
      exact restSame fun other isStep =>
        areInside other (List.mem_cons_of_mem _ isStep)

/-- Flattening gives the same order inside both graphs. -/
theorem flatten_eq
    (embeds : Embeds place inside left right)
    (closed : ClosedUnderUse inside left fun id dependency =>
      selection.uses id dependency = true)
    {root : NodeId}
    (isInside : inside root) :
    right.flatten (selection.relocate place) (place root) =
      (left.flatten selection root).map place := by
  have areInside : ∀ id, .enter id ∈ [Order.Step.enter root] → inside id := by
    intro id isStep
    cases List.mem_singleton.mp isStep
    exact isInside
  exact @walk_eq _ _ _ _ _ embeds closed [] [] _ areInside

/-! ## Merging -/

theorem settingsAt_eq
    (embeds : Embeds place inside left right)
    (isInside : inside id)
    (isNode : id ∈ left.nodes)
    (selection : Selection)
    (override : Option Path) :
    right.settingsAt (selection.relocate place) override (place id) =
      left.settingsAt selection override id := by
  obtain ⟨package, isPackage⟩ := Graph.mem_nodes_iff.mp isNode
  unfold Graph.settingsAt
  rw [embeds.package? id isInside, isPackage]
  dsimp only
  rw [Selection.components_relocate embeds.injective]

/-- Merging the settings of nodes gives the same flags inside both graphs. -/
theorem aggregate_eq
    (embeds : Embeds place inside left right)
    {order : List NodeId}
    (areInside : ∀ id ∈ order, inside id)
    (areNodes : ∀ id ∈ order, id ∈ left.nodes)
    (selection : Selection)
    (override : Option Path) :
    right.aggregate (selection.relocate place) (order.map place) override =
      left.aggregate selection order override := by
  apply aggregate_congr
  · exact fun id isPlaced =>
      embeds.settingsAt_eq (areInside id isPlaced) (areNodes id isPlaced) selection
        override
  · exact fun id isPlaced => embeds.package? id (areInside id isPlaced)

end Embeds
end Graph
end PackageFlags
