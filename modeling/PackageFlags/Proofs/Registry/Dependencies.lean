import Mathlib.Data.List.Forall2
import PackageFlags.Constraint
import PackageFlags.Proofs.Graph.Reachability
import PackageFlags.Proofs.Registry.Growth

/-!
# Finished nodes

A node is finished when it has one dependency for each entry of what its package
requires: the node of the name that the entry is for, with a package that meets the
entry. Nodes stay finished while the registry grows.
-/

namespace PackageFlags
namespace Registry

/-- The package at a node meets a requirement. -/
def Meets
    (registry : Registry)
    (id : NodeId)
    (requirement : Requirement) : Prop :=
  ∃ package, registry.graph.package? id = some package
    ∧ requirement.check package = .ok ()

/-- A dependency is what an entry among requirements asks for: it is the node of
the name that the entry is for, and its package meets the entry. -/
def Provides
    (registry : Registry)
    (child : String × NodeId)
    (entry : String × Requirement) : Prop :=
  child.1 = entry.1 ∧ registry.find? entry.1 = some child.2
    ∧ registry.Meets child.2 entry.2

section Provided

variable {registry : Registry} {children : List (String × NodeId)}
variable {requirements : List (String × Requirement)}

/-- Dependencies that provide requirements are nodes of the graph. -/
theorem mem_nodes_of_provided
    (provided : List.Forall₂ registry.Provides children requirements) :
    ∀ child ∈ children, child.2 ∈ registry.graph.nodes := by
  induction provided with
  | nil => simp
  | cons provides _ restNodes =>
      obtain ⟨_, _, package, isPackage, _⟩ := provides
      intro child member
      rcases List.mem_cons.mp member with isFirst | later
      · exact isFirst ▸ Graph.mem_nodes_of_package? isPackage
      · exact restNodes child later

/-- Dependencies that provide requirements have their names, in order. -/
theorem names_of_provided
    (provided : List.Forall₂ registry.Provides children requirements) :
    children.map Prod.fst = requirements.map Prod.fst := by
  induction provided with
  | nil => rfl
  | cons provides _ restSame =>
      rw [List.map_cons, List.map_cons, provides.1, restSame]

/-- Dependencies that provide the entries of a map have increasing names. -/
theorem increasing_of_provided
    {requires : NameMap Requirement}
    (provided : List.Forall₂ registry.Provides children requires.entries) :
    children.Pairwise fun left right => left.1 < right.1 := by
  have increasing := requires.increasing
  rw [← List.pairwise_map, ← names_of_provided provided,
    List.pairwise_map] at increasing
  exact increasing

end Provided

/-- The dependencies of a node provide what its package requires, one for each
entry and in their order. -/
def Finished (registry : Registry) (id : NodeId) : Prop :=
  ∃ package, registry.graph.package? id = some package
    ∧ List.Forall₂ registry.Provides (registry.graph.children id)
        package.requires.entries

namespace Extends

variable {before after : Registry}

theorem meets
    (grows : Extends before after)
    {id : NodeId}
    {requirement : Requirement}
    (meets : before.Meets id requirement) :
    after.Meets id requirement := by
  obtain ⟨package, isPackage, isMet⟩ := meets
  exact ⟨package, grows.package?_eq_some isPackage, isMet⟩

theorem provides
    (grows : Extends before after)
    (consistent : Consistent before)
    {child : String × NodeId}
    {entry : String × Requirement}
    (provides : before.Provides child entry) :
    after.Provides child entry :=
  ⟨provides.1, grows.find?_eq_some consistent provides.2.1,
    grows.meets provides.2.2⟩

/-- Nodes keep their edges. -/
theorem outgoing_eq
    (grows : Extends before after)
    {id : NodeId}
    (isOld : id ∈ before.graph.nodes) :
    after.graph.outgoing id = before.graph.outgoing id := by
  obtain ⟨added, isEdges, addedNew⟩ := grows.edges
  apply Graph.outgoing_eq_of_edges isEdges
  intro edge isAdded atSource
  exact addedNew edge isAdded (atSource ▸ isOld)

/-- Nodes keep their dependencies. -/
theorem children_eq
    (grows : Extends before after)
    {id : NodeId}
    (isOld : id ∈ before.graph.nodes) :
    after.graph.children id = before.graph.children id := by
  unfold Graph.children
  rw [grows.outgoing_eq isOld]

theorem finished
    (grows : Extends before after)
    (consistent : Consistent before)
    {id : NodeId}
    (finished : before.Finished id) :
    after.Finished id := by
  obtain ⟨package, isPackage, provided⟩ := finished
  refine ⟨package, grows.package?_eq_some isPackage, ?_⟩
  rw [grows.children_eq (Graph.mem_nodes_of_package? isPackage)]
  exact provided.imp fun _ _ provides => grows.provides consistent provides

theorem reaches
    (grows : Extends before after)
    {source target : NodeId}
    (reaches : before.graph.Reaches source target) :
    after.graph.Reaches source target := by
  obtain ⟨added, isEdges, _⟩ := grows.edges
  exact reaches.mono (isEdges ▸ List.subset_append_right added _)

end Extends

/-- A package that is entered has no edges as long as it is not connected. -/
theorem Extends.source_ne_fresh
    {before after : Registry}
    {name : String}
    {package : Package}
    (grows : Extends (before.enter name package) after) :
    ∀ edge ∈ after.graph.edges, edge.source ≠ before.graph.fresh := by
  obtain ⟨added, isEdges, addedNew⟩ := grows.edges
  rw [isEdges]
  intro edge isEdge atFresh
  rcases List.mem_append.mp isEdge with isAdded | isOld
  · apply addedNew edge isAdded
    simp [atFresh]
  · apply before.graph.fresh_not_mem
    rw [← atFresh]
    exact (before.graph.closed edge isOld).1

/-! ## Connecting a node -/

section Connect

variable {registry : Registry} {id : NodeId} {children : List (String × NodeId)}

/-- Other nodes keep their dependencies when a node is connected. -/
theorem children_connect_of_ne
    (isNode : id ∈ registry.graph.nodes)
    (areNodes : ∀ child ∈ children, child.2 ∈ registry.graph.nodes)
    {other : NodeId}
    (different : other ≠ id) :
    (registry.connect id children).graph.children other =
      registry.graph.children other := by
  apply Graph.children_eq_of_edges (edges_connect isNode areNodes)
  intro edge isAdded atSource
  obtain ⟨child, _, rfl⟩ := List.mem_map.mp (List.mem_reverse.mp isAdded)
  exact different atSource.symm

/-- A node without edges that is connected with dependencies by increasing names
has just these. -/
theorem children_connect_self
    (isNode : id ∈ registry.graph.nodes)
    (areNodes : ∀ child ∈ children, child.2 ∈ registry.graph.nodes)
    (noEdges : ∀ edge ∈ registry.graph.edges, edge.source ≠ id)
    (increasing : children.Pairwise fun left right => left.1 < right.1) :
    (registry.connect id children).graph.children id = children := by
  refine Graph.children_eq ?_ increasing
  have oldNone : registry.graph.edges.filter
      (fun edge => edge.source = id) = [] := by
    rw [List.filter_eq_nil_iff]
    intro edge member
    simpa using noEdges edge member
  have newAll : ((children.map fun child => Edge.mk id child.1 child.2).reverse
      |>.filter fun edge => edge.source = id) =
        (children.map fun child => Edge.mk id child.1 child.2).reverse := by
    rw [List.filter_eq_self]
    intro edge member
    obtain ⟨child, _, rfl⟩ := List.mem_map.mp (List.mem_reverse.mp member)
    exact decide_eq_true rfl
  unfold Graph.outgoing
  rw [edges_connect isNode areNodes, List.filter_append, oldNone, newAll,
    List.append_nil, List.map_reverse, List.map_map]
  simp [Function.comp_def, List.reverse_perm]

theorem provides_connect
    {child : String × NodeId}
    {entry : String × Requirement}
    (provides : registry.Provides child entry) :
    (registry.connect id children).Provides child entry := by
  obtain ⟨sameName, cached, package, isPackage, isMet⟩ := provides
  exact ⟨sameName, cached, package, by rwa [package?_connect], isMet⟩

/-- A node that is connected with what its package requires is finished. -/
theorem finished_connect_self
    {package : Package}
    (isPackage : registry.graph.package? id = some package)
    (noEdges : ∀ edge ∈ registry.graph.edges, edge.source ≠ id)
    (provided : List.Forall₂ registry.Provides children
      package.requires.entries) :
    (registry.connect id children).Finished id := by
  refine ⟨package, by rwa [package?_connect], ?_⟩
  rw [children_connect_self (Graph.mem_nodes_of_package? isPackage)
    (mem_nodes_of_provided provided) noEdges (increasing_of_provided provided)]
  exact provided.imp fun _ _ => provides_connect

/-- Other nodes stay finished when a node is connected. -/
theorem finished_connect_of_ne
    (isNode : id ∈ registry.graph.nodes)
    (areNodes : ∀ child ∈ children, child.2 ∈ registry.graph.nodes)
    {other : NodeId}
    (different : other ≠ id)
    (finished : registry.Finished other) :
    (registry.connect id children).Finished other := by
  obtain ⟨package, isPackage, provided⟩ := finished
  refine ⟨package, by rwa [package?_connect], ?_⟩
  rw [children_connect_of_ne isNode areNodes different]
  exact provided.imp fun _ _ => provides_connect

/-- A node that is connected reaches what its dependencies reach. -/
theorem reaches_connect
    (isNode : id ∈ registry.graph.nodes)
    (areNodes : ∀ child ∈ children, child.2 ∈ registry.graph.nodes)
    {child : String × NodeId}
    (isChild : child ∈ children)
    {target : NodeId}
    (reaches : registry.graph.Reaches child.2 target) :
    (registry.connect id children).graph.Reaches id target := by
  have isEdges := edges_connect isNode areNodes
  have isEdge : Edge.mk id child.1 child.2 ∈
      (registry.connect id children).graph.edges := by
    rw [isEdges, List.mem_append, List.mem_reverse]
    exact Or.inl (List.mem_map_of_mem isChild)
  exact Graph.Reaches.head (Graph.mem_children.mpr isEdge)
    (reaches.mono (isEdges ▸ List.subset_append_right _ _))

end Connect
end Registry
end PackageFlags
