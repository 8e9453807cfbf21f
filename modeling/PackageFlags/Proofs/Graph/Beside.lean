import PackageFlags.Proofs.Graph.Embedding

/-!
# Graphs beside others

A graph is put beside another one by numbering its nodes on from those that are there.
Adding a package or an edge to a graph comes to the same as adding it beside the other
one, and what is computed from a node does not depend on what it stands beside.
-/

namespace PackageFlags

/-- An edge with its nodes relocated. -/
def Edge.relocate (place : NodeId -> NodeId) (edge : Edge) : Edge where
  source := place edge.source
  name := edge.name
  target := place edge.target

namespace Graph

/-- The node behind those of a graph that has a number in another one. -/
def behind (base : Graph) (id : NodeId) : NodeId :=
  base.fresh + id

/-- A graph consists of one that was there and one that is put beside it. -/
structure Beside (base own joined : Graph) : Prop where
  packages : joined.packages =
    base.packages ++ own.packages.map (Prod.map base.behind id)
  edges : joined.edges = own.edges.map (Edge.relocate base.behind) ++ base.edges

theorem behind_injective (base : Graph) : Function.Injective base.behind :=
  fun _ _ same => Nat.add_left_cancel same

/-- Nodes of the graph that was there differ from those behind. -/
theorem behind_not_mem (base : Graph) (id : NodeId) : base.behind id ∉ base.nodes :=
  fun isNode => Nat.not_lt.mpr (Nat.le_add_right _ id) (lt_fresh isNode)

/-- The first number above those of nodes, from a number that is given. -/
def nextAfter (nodes : List NodeId) (least : NodeId) : NodeId :=
  nodes.foldr (fun id above => max (id + 1) above) least

theorem nextAfter_append (before after : List NodeId) (least : NodeId) :
    nextAfter (before ++ after) least = nextAfter before (nextAfter after least) :=
  List.foldr_append

theorem nextAfter_eq_max (nodes : List NodeId) (least : NodeId) :
    nextAfter nodes least = max (nextAfter nodes 0) least := by
  induction nodes with
  | nil => exact (Nat.zero_max least).symm
  | cons first rest restSame =>
      change max (first + 1) (nextAfter rest least) =
        max (max (first + 1) (nextAfter rest 0)) least
      rw [restSame, Nat.max_assoc]

theorem nextAfter_behind (base : Graph) (nodes : List NodeId) :
    nextAfter (nodes.map base.behind) base.fresh =
      base.behind (nextAfter nodes 0) := by
  induction nodes with
  | nil => rfl
  | cons first rest restSame =>
      change max (base.fresh + (first + 1)) (nextAfter (rest.map base.behind) _) =
        base.fresh + max (first + 1) (nextAfter rest 0)
      rw [restSame]
      exact Nat.add_max_add_left base.fresh (first + 1) (nextAfter rest 0)

/-- What is found under a key among entries whose keys are relocated. -/
theorem lookup_map_key
    {α : Type}
    {place : NodeId -> NodeId}
    (injective : Function.Injective place)
    (entries : List (NodeId × α))
    (key : NodeId) :
    (entries.map (Prod.map place id)).lookup (place key) = entries.lookup key := by
  induction entries with
  | nil => rfl
  | cons first rest restSame =>
      have sameKey : (place key == place first.1) = (key == first.1) := by
        rw [Bool.eq_iff_iff, beq_iff_eq, beq_iff_eq, injective.eq_iff]
      rw [List.map_cons, List.lookup_cons, List.lookup_cons, restSame]
      simp only [Prod.map, id_eq, sameKey]

namespace Beside

variable {base own joined : Graph}

/-- Nothing is put beside the graph. -/
theorem start (base : Graph) : Beside base empty base where
  packages := (List.append_nil _).symm
  edges := rfl

theorem nodes (beside : Beside base own joined) :
    joined.nodes = base.nodes ++ own.nodes.map base.behind := by
  simp [Graph.nodes, beside.packages]

theorem mem_nodes_iff
    (beside : Beside base own joined)
    {id : NodeId} :
    base.behind id ∈ joined.nodes ↔ id ∈ own.nodes := by
  rw [beside.nodes, List.mem_append, List.mem_map_of_injective base.behind_injective]
  exact or_iff_right (base.behind_not_mem id)

/-- Numbers are counted on from those of the graph that was there. -/
theorem fresh (beside : Beside base own joined) :
    joined.fresh = base.behind own.fresh := by
  calc
    joined.fresh = nextAfter base.nodes (nextAfter (own.nodes.map base.behind) 0) := by
      rw [← nextAfter_append, ← beside.nodes]
      rfl
    _ = max base.fresh (nextAfter (own.nodes.map base.behind) 0) :=
      nextAfter_eq_max _ _
    _ = nextAfter (own.nodes.map base.behind) base.fresh := by
      rw [Nat.max_comm, ← nextAfter_eq_max]
    _ = base.behind own.fresh := nextAfter_behind base own.nodes

/-- A package is added beside the graph. -/
theorem add
    (beside : Beside base own joined)
    (package : Package) :
    Beside base (own.add package) (joined.add package) where
  packages := by
    simp [beside.packages, beside.fresh]
  edges := beside.edges

/-- An edge is added beside the graph. -/
theorem connect
    (beside : Beside base own joined)
    (edge : Edge) :
    Beside base (own.connect edge) (joined.connect (edge.relocate base.behind)) where
  packages := by
    rw [packages_connect, packages_connect, beside.packages]
  edges := by
    have sameEnds :
        ((edge.relocate base.behind).source ∈ joined.nodes
          ∧ (edge.relocate base.behind).target ∈ joined.nodes) ↔
            edge.source ∈ own.nodes ∧ edge.target ∈ own.nodes :=
      and_congr beside.mem_nodes_iff beside.mem_nodes_iff
    unfold Graph.connect
    simp only [sameEnds]
    split
    · simp [beside.edges]
    · exact beside.edges

theorem package?_behind (beside : Beside base own joined) (node : NodeId) :
    joined.package? (base.behind node) = own.package? node := by
  have notThere : base.packages.lookup (base.behind node) = none := by
    rw [List.lookup_eq_none_iff]
    intro entry isEntry
    have isNode : entry.1 ∈ base.nodes := List.mem_map_of_mem isEntry
    exact bne_iff_ne.mpr fun same => base.behind_not_mem node (same ▸ isNode)
  unfold Graph.package?
  rw [beside.packages, List.lookup_append, notThere, Option.none_or,
    lookup_map_key base.behind_injective]

theorem children_behind (beside : Beside base own joined) (node : NodeId) :
    joined.children (base.behind node) =
      (own.children node).map (Prod.map id base.behind) := by
  have noneThere : base.edges.filter (fun edge => edge.source = base.behind node) =
      [] := by
    apply List.filter_eq_nil_iff.mpr
    intro edge isEdge atSource
    have isNode := (base.closed edge isEdge).1
    rw [decide_eq_true_eq] at atSource
    exact base.behind_not_mem node (atSource ▸ isNode)
  have sorted (children : List (String × NodeId)) :
      (children.mergeSort fun left right => left.1 ≤ right.1).map
          (Prod.map id base.behind) =
        (children.map (Prod.map id base.behind)).mergeSort
          fun left right => left.1 ≤ right.1 :=
    List.map_mergeSort fun _ _ _ _ => rfl
  unfold Graph.children Graph.outgoing
  rw [beside.edges, List.filter_append, noneThere, List.append_nil, List.filter_map,
    sorted, List.map_map, List.map_map]
  simp [Function.comp_def, Edge.relocate, base.behind_injective.eq_iff]

/-- Whatever it stands beside, a graph is found behind it. -/
theorem embeds (beside : Beside base own joined) :
    Embeds base.behind (fun _ => True) own joined where
  injective := base.behind_injective
  package? := fun node _ => beside.package?_behind node
  children := fun node _ => beside.children_behind node

end Beside
end Graph
end PackageFlags
