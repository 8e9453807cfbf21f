import PackageFlags.Package

/-!
# Package graphs

A package graph keeps packages at numbered nodes. An edge leads from a package to
one of its dependencies and carries the name that it is required under. A node
keeps its number while it is there, and takes its edges away with it.
-/

namespace PackageFlags

/-- The number of a node in a package graph. -/
abbrev NodeId := Nat

/-- An edge from a package to a dependency. -/
structure Edge where
  /-- The node of the package. -/
  source : NodeId
  /-- The name that the dependency is required under. -/
  name : String
  /-- The node of the dependency. -/
  target : NodeId
  deriving DecidableEq, Repr

/-- Packages at numbered nodes, with edges between nodes that are there. -/
@[ext] structure Graph where
  /-- The packages with their nodes, in the order in which they were added. -/
  packages : List (NodeId × Package)
  /-- The edges, the latest first. -/
  edges : List Edge
  /-- No two packages share a node. -/
  distinct : (packages.map Prod.fst).Nodup
  /-- Edges lead from nodes to nodes. -/
  closed : ∀ edge ∈ edges,
    edge.source ∈ packages.map Prod.fst ∧ edge.target ∈ packages.map Prod.fst
  deriving DecidableEq

namespace Graph

/-- The graph without packages. -/
def empty : Graph := ⟨[], [], by simp, by simp⟩

/-- The nodes in the order in which they were added. -/
def nodes (graph : Graph) : List NodeId :=
  graph.packages.map Prod.fst

/-- The number of packages. -/
def size (graph : Graph) : Nat :=
  graph.packages.length

/-- The package at a node. -/
def package? (graph : Graph) (id : NodeId) : Option Package :=
  graph.packages.lookup id

/-- The number that the next node gets: one more than all that are in use. -/
def fresh (graph : Graph) : NodeId :=
  graph.nodes.foldr (fun id above => max (id + 1) above) 0

theorem lt_fresh
    {graph : Graph}
    {id : NodeId}
    (member : id ∈ graph.nodes) : id < graph.fresh := by
  unfold fresh
  generalize graph.nodes = nodes at member
  induction nodes with
  | nil => simp at member
  | cons first rest restLess =>
      rw [List.foldr_cons]
      rcases List.mem_cons.mp member with same | later
      · exact Nat.lt_of_lt_of_le (same ▸ Nat.lt_succ_self id)
          (Nat.le_max_left _ _)
      · exact Nat.lt_of_lt_of_le (restLess later) (Nat.le_max_right _ _)

theorem fresh_not_mem (graph : Graph) : graph.fresh ∉ graph.nodes :=
  fun member => Nat.lt_irrefl _ (lt_fresh member)

/-- Add a package at the next node. -/
def add (graph : Graph) (package : Package) : Graph where
  packages := graph.packages ++ [(graph.fresh, package)]
  edges := graph.edges
  distinct := by
    have notUsed := graph.fresh_not_mem
    unfold nodes at notUsed
    rw [List.map_append, List.nodup_append]
    refine ⟨graph.distinct, by simp, ?_⟩
    intro id member other isFresh same
    simp only [List.map_cons, List.map_nil, List.mem_singleton] at isFresh
    exact notUsed (isFresh ▸ same ▸ member)
  closed := by
    intro edge member
    have ends := graph.closed edge member
    simp only [List.map_append, List.mem_append]
    exact ⟨Or.inl ends.1, Or.inl ends.2⟩

/-- Take away a node with the edges that start or end there. -/
def remove (graph : Graph) (id : NodeId) : Graph where
  packages := graph.packages.filter fun entry => entry.1 ≠ id
  edges := graph.edges.filter fun edge => edge.source ≠ id ∧ edge.target ≠ id
  distinct := graph.distinct.sublist (List.filter_sublist.map Prod.fst)
  closed := by
    intro edge member
    obtain ⟨isEdge, kept⟩ := List.mem_filter.mp member
    have ends := graph.closed edge isEdge
    simp only [decide_eq_true_eq] at kept
    simp only [List.mem_map, List.mem_filter, decide_eq_true_eq] at ends ⊢
    obtain ⟨⟨source, isSource, atSource⟩, target, isTarget, atTarget⟩ := ends
    exact ⟨⟨source, ⟨isSource, atSource ▸ kept.1⟩, atSource⟩,
      target, ⟨isTarget, atTarget ▸ kept.2⟩, atTarget⟩

/-- Add an edge between two nodes that are there; any other edge is left out. -/
def connect (graph : Graph) (edge : Edge) : Graph :=
  if ends : edge.source ∈ graph.nodes ∧ edge.target ∈ graph.nodes then
    { graph with
      edges := edge :: graph.edges
      closed := by
        intro other member
        rcases List.mem_cons.mp member with same | old
        · exact same ▸ ends
        · exact graph.closed other old }
  else
    graph

/-- The edges that start at a node, the latest first. -/
def outgoing (graph : Graph) (id : NodeId) : List Edge :=
  graph.edges.filter fun edge => edge.source = id

/-- The dependencies of a node by the names that they are required under, in name
order. -/
def children (graph : Graph) (id : NodeId) : List (String × NodeId) :=
  ((graph.outgoing id).map fun edge => (edge.name, edge.target)).mergeSort
    fun left right => left.1 ≤ right.1

/-- The dependency of a node that is required under a name. -/
def child? (graph : Graph) (id : NodeId) (name : String) : Option NodeId :=
  (graph.children id).lookup name

@[simp] theorem packages_add (graph : Graph) (package : Package) :
    (graph.add package).packages =
      graph.packages ++ [(graph.fresh, package)] := rfl

@[simp] theorem nodes_add (graph : Graph) (package : Package) :
    (graph.add package).nodes = graph.nodes ++ [graph.fresh] := by
  simp [nodes]

@[simp] theorem edges_add (graph : Graph) (package : Package) :
    (graph.add package).edges = graph.edges := rfl

@[simp] theorem packages_connect (graph : Graph) (edge : Edge) :
    (graph.connect edge).packages = graph.packages := by
  unfold connect
  split <;> rfl

theorem edges_connect
    {graph : Graph}
    {edge : Edge}
    (isSource : edge.source ∈ graph.nodes)
    (isTarget : edge.target ∈ graph.nodes) :
    (graph.connect edge).edges = edge :: graph.edges := by
  simp [connect, isSource, isTarget]

theorem mem_nodes_iff {graph : Graph} {id : NodeId} :
    id ∈ graph.nodes ↔ exists package, graph.package? id = some package := by
  unfold nodes package?
  rw [← Option.isSome_iff_exists, List.lookup_isSome_iff, List.mem_map]
  constructor
  · rintro ⟨entry, member, same⟩
    exact ⟨entry, member, beq_iff_eq.mpr same.symm⟩
  · rintro ⟨entry, member, same⟩
    exact ⟨entry, member, (beq_iff_eq.mp same).symm⟩

theorem mem_packages_of_package?
    {graph : Graph}
    {id : NodeId}
    {package : Package}
    (isPackage : graph.package? id = some package) :
    (id, package) ∈ graph.packages := by
  obtain ⟨before, after, split, _⟩ := List.lookup_eq_some_iff.mp isPackage
  simp [split]

theorem mem_nodes_of_package?
    {graph : Graph}
    {id : NodeId}
    {package : Package}
    (isPackage : graph.package? id = some package) :
    id ∈ graph.nodes :=
  mem_nodes_iff.mpr ⟨package, isPackage⟩

theorem mem_children
    {graph : Graph}
    {id child : NodeId}
    {name : String} :
    (name, child) ∈ graph.children id ↔ ⟨id, name, child⟩ ∈ graph.edges := by
  unfold children outgoing
  rw [List.mem_mergeSort, List.mem_map]
  constructor
  · rintro ⟨edge, member, same⟩
    obtain ⟨isEdge, atSource⟩ := List.mem_filter.mp member
    obtain ⟨source, edgeName, target⟩ := edge
    simp only [decide_eq_true_eq, Prod.mk.injEq] at atSource same
    obtain ⟨rfl, rfl⟩ := same
    exact atSource ▸ isEdge
  · intro isEdge
    exact ⟨⟨id, name, child⟩, List.mem_filter.mpr ⟨isEdge, by simp⟩, rfl⟩

/-- Dependencies are nodes of the graph. -/
theorem mem_nodes_of_mem_children
    {graph : Graph}
    {id child : NodeId}
    {name : String}
    (member : (name, child) ∈ graph.children id) :
    child ∈ graph.nodes :=
  (graph.closed _ (mem_children.mp member)).2

theorem mem_children_of_child?
    {graph : Graph}
    {id child : NodeId}
    {name : String}
    (isChild : graph.child? id name = some child) :
    (name, child) ∈ graph.children id := by
  obtain ⟨before, after, split, _⟩ := List.lookup_eq_some_iff.mp isChild
  simp [split]

/-- Edges from other nodes make no difference to the edges of a node. -/
theorem outgoing_eq_of_edges
    {before after : Graph}
    {added : List Edge}
    (isEdges : after.edges = added ++ before.edges)
    {id : NodeId}
    (fromOthers : ∀ edge ∈ added, edge.source ≠ id) :
    after.outgoing id = before.outgoing id := by
  have noneAdded : added.filter (fun edge => edge.source = id) = [] := by
    apply List.filter_eq_nil_iff.mpr
    intro edge isAdded
    simpa using fromOthers edge isAdded
  unfold outgoing
  rw [isEdges, List.filter_append, noneAdded, List.nil_append]

/-- Edges from other nodes make no difference to the dependencies of a node. -/
theorem children_eq_of_edges
    {before after : Graph}
    {added : List Edge}
    (isEdges : after.edges = added ++ before.edges)
    {id : NodeId}
    (fromOthers : ∀ edge ∈ added, edge.source ≠ id) :
    after.children id = before.children id := by
  unfold children
  rw [outgoing_eq_of_edges isEdges fromOthers]

/-- An added package is found at the node that was next. -/
theorem package?_add_fresh (graph : Graph) (package : Package) :
    (graph.add package).package? graph.fresh = some package := by
  have isNew : graph.packages.lookup graph.fresh = none := by
    rw [List.lookup_eq_none_iff]
    intro entry member
    have used : entry.1 ∈ graph.nodes := List.mem_map_of_mem member
    exact bne_iff_ne.mpr fun same => graph.fresh_not_mem (same ▸ used)
  unfold package?
  rw [packages_add, List.lookup_append, isNew]
  simp

/-- The dependencies of a node are listed by increasing names, in whatever order
the edges to them were added. -/
theorem children_eq
    {graph : Graph}
    {id : NodeId}
    {expected : List (String × NodeId)}
    (isOutgoing : List.Perm
      ((graph.outgoing id).map fun edge => (edge.name, edge.target)) expected)
    (increasing : expected.Pairwise fun left right => left.1 < right.1) :
    graph.children id = expected := by
  have sorted : (graph.children id).Pairwise
      fun left right => left.1 ≤ right.1 := by
    have isSorted := @List.pairwise_mergeSort (String × NodeId)
      (fun left right => left.1 ≤ right.1)
      (fun _ _ _ first second => by
        simp only [decide_eq_true_eq] at first second ⊢
        exact String.le_trans first second)
      (fun left right => by
        simpa using String.le_total left.1 right.1)
      ((graph.outgoing id).map fun edge => (edge.name, edge.target))
    exact isSorted.imp of_decide_eq_true
  have isPerm : (graph.children id).Perm expected :=
    (List.mergeSort_perm _ _).trans isOutgoing
  have increasingLe : expected.Pairwise fun left right => left.1 ≤ right.1 :=
    increasing.imp Std.le_of_lt
  refine List.Perm.eq_of_pairwise ?_ sorted increasingLe isPerm
  rintro ⟨left, leftNode⟩ ⟨right, rightNode⟩ isLeft isRight less greater
  have sameName : left = right := String.le_antisymm less greater
  subst sameName
  have leftFound := NameMap.lookup_of_mem_entries increasing
    (isPerm.mem_iff.mp isLeft)
  have rightFound := NameMap.lookup_of_mem_entries increasing isRight
  rw [leftFound] at rightFound
  cases rightFound
  rfl

end Graph
end PackageFlags
