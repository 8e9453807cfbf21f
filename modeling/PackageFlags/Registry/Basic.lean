import PackageFlags.Graph.Basic

/-!
# Registries of loaded packages

A registry is a package graph together with the names that its packages were asked
for by. The cache tells the node of a name, and the journal lists the names in the
order in which they were entered. What was entered after a mark in the journal can
be taken away again.
-/

namespace PackageFlags

/-- The packages loaded so far. -/
@[ext] structure Registry where
  /-- The packages and their dependencies. -/
  graph : Graph := .empty
  /-- The nodes by the names that they were asked for by. -/
  cache : NameMap NodeId := .empty
  /-- The names in the order in which they were entered. -/
  journal : List String := []
  deriving DecidableEq

namespace Registry

/-- The registry without packages. -/
def empty : Registry := {}

/-- The node that a name has. -/
def find? (registry : Registry) (name : String) : Option NodeId :=
  registry.cache.get? name

/-- Add a package under a name. Its node is the next of the graph. -/
def enter
    (registry : Registry)
    (name : String)
    (package : Package) : Registry where
  graph := registry.graph.add package
  cache := registry.cache.insert name registry.graph.fresh
  journal := registry.journal ++ [name]

/-- Add an edge from a node to each of its dependencies. -/
def connect
    (registry : Registry)
    (id : NodeId)
    (children : List (String × NodeId)) : Registry :=
  { registry with
    graph := children.foldl
      (fun graph (name, child) => graph.connect ⟨id, name, child⟩)
      registry.graph }

/-- Take a name out of the cache and its node out of the graph. -/
def evict (registry : Registry) (name : String) : Registry :=
  match registry.find? name with
  | some id =>
      { registry with
        graph := registry.graph.remove id
        cache := registry.cache.erase name }
  | none => registry

/-- Evict every name that the journal lists behind a mark, the latest first. -/
def rollback (registry : Registry) (mark : Nat) : Registry :=
  (registry.journal.drop mark).reverse.foldl evict
    { registry with journal := registry.journal.take mark }

@[simp] theorem graph_enter
    (registry : Registry)
    (name : String)
    (package : Package) :
    (registry.enter name package).graph = registry.graph.add package := rfl

@[simp] theorem journal_enter
    (registry : Registry)
    (name : String)
    (package : Package) :
    (registry.enter name package).journal = registry.journal ++ [name] := rfl

@[simp] theorem find?_enter
    (registry : Registry)
    (name other : String)
    (package : Package) :
    (registry.enter name package).find? other =
      if other = name then some registry.graph.fresh
      else registry.find? other := by
  simp [find?, enter]

@[simp] theorem journal_connect
    (registry : Registry)
    (id : NodeId)
    (children : List (String × NodeId)) :
    (registry.connect id children).journal = registry.journal := rfl

@[simp] theorem find?_connect
    (registry : Registry)
    (id : NodeId)
    (children : List (String × NodeId))
    (name : String) :
    (registry.connect id children).find? name = registry.find? name := rfl

@[simp] theorem packages_connect
    (registry : Registry)
    (id : NodeId)
    (children : List (String × NodeId)) :
    (registry.connect id children).graph.packages =
      registry.graph.packages := by
  unfold connect
  generalize registry.graph = graph
  induction children generalizing graph with
  | nil => rfl
  | cons first rest restSame =>
      rw [List.foldl_cons, restSame, Graph.packages_connect]

@[simp] theorem nodes_connect
    (registry : Registry)
    (id : NodeId)
    (children : List (String × NodeId)) :
    (registry.connect id children).graph.nodes = registry.graph.nodes := by
  simp [Graph.nodes]

@[simp] theorem package?_connect
    (registry : Registry)
    (id : NodeId)
    (children : List (String × NodeId))
    (other : NodeId) :
    (registry.connect id children).graph.package? other =
      registry.graph.package? other := by
  simp [Graph.package?]

/-- Connecting nodes that are there adds one edge for each dependency. -/
theorem edges_connect
    {registry : Registry}
    {id : NodeId}
    {children : List (String × NodeId)}
    (isNode : id ∈ registry.graph.nodes)
    (areNodes : ∀ child ∈ children, child.2 ∈ registry.graph.nodes) :
    (registry.connect id children).graph.edges =
      (children.map fun child => ⟨id, child.1, child.2⟩).reverse
        ++ registry.graph.edges := by
  unfold connect
  generalize registry.graph = graph at isNode areNodes
  induction children generalizing graph with
  | nil => rfl
  | cons first rest restSame =>
      have nodesSame : (graph.connect ⟨id, first.1, first.2⟩).nodes =
          graph.nodes := by
        simp [Graph.nodes]
      have isFirst : first.2 ∈ graph.nodes := areNodes first List.mem_cons_self
      have areRest : ∀ child ∈ rest, child.2 ∈ graph.nodes := fun child later =>
        areNodes child (List.mem_cons_of_mem first later)
      rw [List.foldl_cons, restSame _ (nodesSame ▸ isNode) (nodesSame ▸ areRest),
        Graph.edges_connect isNode isFirst]
      simp

@[simp] theorem journal_evict (registry : Registry) (name : String) :
    (registry.evict name).journal = registry.journal := by
  unfold evict
  split <;> rfl

@[simp] theorem find?_evict
    (registry : Registry)
    (name other : String) :
    (registry.evict name).find? other =
      if other = name then none else registry.find? other := by
  unfold evict
  split
  · simp [find?]
  · rename_i notCached
    by_cases same : other = name
    · simp [same, notCached]
    · simp [same]

theorem packages_evict (registry : Registry) (name : String) :
    (registry.evict name).graph.packages =
      registry.graph.packages.filter
        fun entry => registry.find? name ≠ some entry.1 := by
  unfold evict
  cases isCached : registry.find? name with
  | none => exact (List.filter_eq_self.mpr (by simp)).symm
  | some id => simp [Graph.remove, eq_comm]

theorem edges_evict (registry : Registry) (name : String) :
    (registry.evict name).graph.edges =
      registry.graph.edges.filter
        fun edge => registry.find? name ≠ some edge.source
          ∧ registry.find? name ≠ some edge.target := by
  unfold evict
  cases isCached : registry.find? name with
  | none => exact (List.filter_eq_self.mpr (by simp)).symm
  | some id => simp [Graph.remove, eq_comm]

end Registry
end PackageFlags
