import Mathlib.Data.List.Nodup
import Mathlib.Data.Option.Basic
import PackageFlags.Registry.Basic

/-!
# Growth of registries

A registry is consistent when its journal lists the names in the cache, each once,
and these have the nodes of the graph in the order of the journal. While packages
are loaded a registry grows: names, packages and edges are added to it, and every
new edge starts at a new node.
-/

namespace PackageFlags
namespace Registry

/-- The cache, the journal and the graph of a registry fit together. -/
structure Consistent (registry : Registry) : Prop where
  /-- No name is listed twice. -/
  nodup : registry.journal.Nodup
  /-- Every name in the cache is listed. -/
  listed : ∀ name id, registry.find? name = some id → name ∈ registry.journal
  /-- The names that are listed have the nodes of the graph, in order. -/
  inOrder : registry.journal.map registry.find? = registry.graph.nodes.map some

/-- The second registry has all that the first has. What it has besides comes
later, and leaves the edges of the nodes in the first alone. -/
structure Extends (before after : Registry) : Prop where
  /-- The journal goes on. -/
  journal : before.journal <+: after.journal
  /-- Packages stay, in order. -/
  packages : before.graph.packages <+: after.graph.packages
  /-- Names keep their nodes. -/
  cache : ∀ name ∈ before.journal, after.find? name = before.find? name
  /-- Edges stay, and new ones start at new nodes. -/
  edges : ∃ added, after.graph.edges = added ++ before.graph.edges
    ∧ ∀ edge ∈ added, edge.source ∉ before.graph.nodes

namespace Consistent

variable {registry : Registry}

theorem empty : Consistent Registry.empty where
  nodup := List.nodup_nil
  listed := by
    intro name id isCached
    simp [Registry.empty, find?] at isCached
  inOrder := rfl

/-- A name has a node exactly if it is listed. -/
theorem mem_journal_iff (consistent : Consistent registry) {name : String} :
    name ∈ registry.journal ↔ ∃ id, registry.find? name = some id := by
  constructor
  · intro member
    have isNode : registry.find? name ∈ registry.graph.nodes.map some :=
      consistent.inOrder ▸ List.mem_map_of_mem member
    obtain ⟨id, _, same⟩ := List.mem_map.mp isNode
    exact ⟨id, same.symm⟩
  · rintro ⟨id, isCached⟩
    exact consistent.listed name id isCached

/-- A number is a node exactly if some name has it. -/
theorem mem_nodes_iff (consistent : Consistent registry) {id : NodeId} :
    id ∈ registry.graph.nodes ↔
      ∃ name, registry.find? name = some id := by
  have same : some id ∈ registry.graph.nodes.map some ↔
      ∃ name ∈ registry.journal, registry.find? name = some id := by
    rw [← consistent.inOrder, List.mem_map]
  rw [List.mem_map_of_injective (Option.some_injective NodeId)] at same
  rw [same]
  constructor
  · rintro ⟨name, _, isCached⟩
    exact ⟨name, isCached⟩
  · rintro ⟨name, isCached⟩
    exact ⟨name, consistent.listed name id isCached, isCached⟩

/-- No two names have the same node. -/
theorem find?_injective
    (consistent : Consistent registry)
    {left right : String}
    {id : NodeId}
    (isLeft : registry.find? left = some id)
    (isRight : registry.find? right = some id) :
    left = right := by
  have nodesNodup : (registry.journal.map registry.find?).Nodup := by
    rw [consistent.inOrder]
    exact registry.graph.distinct.map (Option.some_injective NodeId)
  exact List.inj_on_of_nodup_map nodesNodup
    (consistent.listed left id isLeft)
    (consistent.listed right id isRight)
    (isLeft.trans isRight.symm)

/-- A name without a node differs from all that are listed. -/
theorem ne_of_mem_journal
    (consistent : Consistent registry)
    {name other : String}
    (isNew : registry.find? name = none)
    (member : other ∈ registry.journal) :
    other ≠ name := by
  rintro rfl
  obtain ⟨id, isCached⟩ := consistent.mem_journal_iff.mp member
  rw [isNew] at isCached
  contradiction

/-- Entering a package under a new name keeps a registry consistent. -/
theorem enter
    (consistent : Consistent registry)
    {name : String}
    (isNew : registry.find? name = none)
    (package : Package) :
    Consistent (registry.enter name package) where
  nodup := by
    rw [journal_enter, List.nodup_append]
    refine ⟨consistent.nodup, by simp, ?_⟩
    intro left isLeft right isRight
    rw [List.mem_singleton] at isRight
    exact isRight ▸ consistent.ne_of_mem_journal isNew isLeft
  listed := by
    intro other id isCached
    rw [find?_enter] at isCached
    rw [journal_enter, List.mem_append]
    split at isCached
    · rename_i same
      exact Or.inr (by simp [same])
    · exact Or.inl (consistent.listed other id isCached)
  inOrder := by
    have same : registry.journal.map (registry.enter name package).find? =
        registry.journal.map registry.find? := by
      apply List.map_congr_left
      intro other member
      rw [find?_enter, if_neg (consistent.ne_of_mem_journal isNew member)]
    rw [journal_enter, List.map_append, same, consistent.inOrder, graph_enter,
      Graph.nodes_add, List.map_append]
    simp

/-- Adding edges keeps a registry consistent. -/
theorem connect
    (consistent : Consistent registry)
    (id : NodeId)
    (children : List (String × NodeId)) :
    Consistent (registry.connect id children) where
  nodup := consistent.nodup
  listed := consistent.listed
  inOrder := by
    have nodesSame : (registry.connect id children).graph.nodes =
        registry.graph.nodes := by
      unfold Graph.nodes
      rw [packages_connect]
    rw [nodesSame]
    exact consistent.inOrder

end Consistent

namespace Extends

variable {before middle after : Registry}

theorem refl (registry : Registry) : Extends registry registry where
  journal := List.prefix_refl _
  packages := List.prefix_refl _
  cache := fun _ _ => rfl
  edges := ⟨[], rfl, by simp⟩

/-- The nodes of a registry stay when it grows. -/
theorem nodes (grows : Extends before after) :
    before.graph.nodes <+: after.graph.nodes :=
  grows.packages.map Prod.fst

theorem mem_nodes
    (grows : Extends before after)
    {id : NodeId}
    (member : id ∈ before.graph.nodes) :
    id ∈ after.graph.nodes :=
  grows.nodes.subset member

theorem trans
    (first : Extends before middle)
    (second : Extends middle after) :
    Extends before after where
  journal := first.journal.trans second.journal
  packages := first.packages.trans second.packages
  cache := by
    intro name member
    rw [second.cache name (first.journal.subset member),
      first.cache name member]
  edges := by
    obtain ⟨earlier, isEarlier, earlierNew⟩ := first.edges
    obtain ⟨later, isLater, laterNew⟩ := second.edges
    refine ⟨later ++ earlier, by rw [isLater, isEarlier, List.append_assoc], ?_⟩
    intro edge member
    rcases List.mem_append.mp member with isLaterEdge | isEarlierEdge
    · exact fun old => laterNew edge isLaterEdge (first.mem_nodes old)
    · exact earlierNew edge isEarlierEdge

/-- Names keep their nodes. -/
theorem find?_eq_some
    (grows : Extends before after)
    (consistent : Consistent before)
    {name : String}
    {id : NodeId}
    (isCached : before.find? name = some id) :
    after.find? name = some id := by
  rw [grows.cache name (consistent.listed name id isCached), isCached]

/-- Nodes keep their packages. -/
theorem package?_eq_some
    (grows : Extends before after)
    {id : NodeId}
    {package : Package}
    (isPackage : before.graph.package? id = some package) :
    after.graph.package? id = some package :=
  List.IsPrefix.lookup_eq_some grows.packages isPackage

/-- A registry grows when a package is entered under a new name. -/
theorem enter
    (consistent : Consistent before)
    {name : String}
    (isNew : before.find? name = none)
    (package : Package) :
    Extends before (before.enter name package) where
  journal := List.prefix_append _ _
  packages := List.prefix_append _ _
  cache := by
    intro other member
    rw [find?_enter, if_neg (consistent.ne_of_mem_journal isNew member)]
  edges := ⟨[], rfl, by simp⟩

/-- A registry grows when a new node is connected. -/
theorem connect
    (grows : Extends before after)
    {id : NodeId}
    {children : List (String × NodeId)}
    (isNode : id ∈ after.graph.nodes)
    (isNew : id ∉ before.graph.nodes)
    (areNodes : ∀ child ∈ children, child.2 ∈ after.graph.nodes) :
    Extends before (after.connect id children) where
  journal := grows.journal
  packages := by
    rw [packages_connect]
    exact grows.packages
  cache := grows.cache
  edges := by
    obtain ⟨added, isAdded, addedNew⟩ := grows.edges
    refine ⟨(children.map fun child => ⟨id, child.1, child.2⟩).reverse ++ added,
      by rw [edges_connect isNode areNodes, isAdded, List.append_assoc], ?_⟩
    intro edge member
    rcases List.mem_append.mp member with isConnecting | isAddedEdge
    · obtain ⟨child, _, rfl⟩ := List.mem_map.mp (List.mem_reverse.mp isConnecting)
      exact isNew
    · exact addedNew edge isAddedEdge

end Extends
end Registry
end PackageFlags
