import PackageFlags.Graph.Basic

/-!
# Dependencies under a name

The dependencies of a node are put in name order, and those with one name stay in the
order of their edges. So the dependency that is found under a name is the end of the
latest edge with this name, and there is one as soon as any edge has the name.
-/

namespace PackageFlags
namespace Graph

variable {graph : Graph} {id child : NodeId} {name : String}

/-- The end of an edge that leaves a node under a name, of the latest one if there are
several. -/
def IsChild
    (graph : Graph)
    (id : NodeId)
    (name : String)
    (child : NodeId) : Prop :=
  ∃ newer older, graph.edges = newer ++ ⟨id, name, child⟩ :: older
    ∧ ∀ edge ∈ newer, edge.source = id → edge.name ≠ name

/-- Name order leaves the dependencies with one name in the order of their edges. -/
theorem filter_children (graph : Graph) (id : NodeId) (name : String) :
    (graph.children id).filter (fun entry => entry.1 = name) =
      ((graph.outgoing id).map fun edge => (edge.name, edge.target)).filter
        fun entry => entry.1 = name := by
  -- those with the name are in name order as they stand, so sorting keeps them so
  have inOrder : (((graph.outgoing id).map fun edge => (edge.name, edge.target)).filter
      fun entry => entry.1 = name).Pairwise fun left right => left.1 ≤ right.1 := by
    apply List.pairwise_of_forall_mem_list
    intro left isLeft right isRight
    have leftNamed : left.1 = name := of_decide_eq_true (List.mem_filter.mp isLeft).2
    have rightNamed : right.1 = name := of_decide_eq_true (List.mem_filter.mp isRight).2
    have sameName : left.1 = right.1 := leftNamed.trans rightNamed.symm
    exact sameName ▸ String.le_refl left.1
  have isSublist := List.sublist_mergeSort
    (fun _ _ _ first second => by
      simp only [decide_eq_true_eq] at first second ⊢
      exact String.le_trans first second)
    (fun left right => by simpa using String.le_total left.1 right.1)
    (inOrder.imp decide_eq_true) List.filter_sublist
  have isPerm := (List.mergeSort_perm
    ((graph.outgoing id).map fun edge => (edge.name, edge.target))
    fun left right => left.1 ≤ right.1).filter fun entry => entry.1 = name
  have isKept := isSublist.filter fun entry => entry.1 = name
  rw [List.filter_filter] at isKept
  simp only [Bool.and_self] at isKept
  exact (isKept.eq_of_length isPerm.length_eq.symm).symm

/-- A value is looked up as that of the first entry with the name. -/
theorem lookup_eq_find? (entries : List (String × NodeId)) (name : String) :
    entries.lookup name = (entries.find? fun entry => entry.1 = name).map Prod.snd := by
  induction entries with
  | nil => rfl
  | cons first rest restSame =>
      rw [NameMap.lookup_entry_cons, List.find?_cons, restSame]
      by_cases isNamed : first.1 = name
      · simp [isNamed]
      · simp [isNamed, Ne.symm isNamed]

/-- What is found under a name is the end of the latest edge with the name. -/
theorem child?_eq_find? (graph : Graph) (id : NodeId) (name : String) :
    graph.child? id name =
      (graph.edges.find? fun edge => edge.source = id ∧ edge.name = name).map
        Edge.target := by
  rw [child?, lookup_eq_find?, ← List.head?_filter, filter_children, List.head?_filter,
    List.find?_map, outgoing, List.find?_filter, Option.map_map]
  simp only [Function.comp_def, decide_eq_true_eq]

theorem child?_eq_some_iff :
    graph.child? id name = some child ↔ graph.IsChild id name child := by
  rw [child?_eq_find?, Option.map_eq_some_iff]
  constructor
  · rintro ⟨⟨source, edgeName, target⟩, isFound, rfl⟩
    obtain ⟨isMatch, newer, older, isSplit, noneMatches⟩ :=
      List.find?_eq_some_iff_append.mp isFound
    obtain ⟨rfl, rfl⟩ := of_decide_eq_true isMatch
    refine ⟨newer, older, isSplit, fun edge isNewer fromId isNamed => ?_⟩
    simpa [fromId, isNamed] using noneMatches edge isNewer
  · rintro ⟨newer, older, isSplit, noneMatches⟩
    refine ⟨⟨id, name, child⟩, List.find?_eq_some_iff_append.mpr ⟨by simp, newer, older,
      isSplit, fun edge isNewer => ?_⟩, rfl⟩
    simpa only [Bool.not_eq_true', decide_eq_false_iff_not, not_and] using
      noneMatches edge isNewer

/-- A dependency is found under a name if some edge of the node has it. -/
theorem exists_child?_iff :
    (∃ child, graph.child? id name = some child) ↔
      ∃ child, ⟨id, name, child⟩ ∈ graph.edges := by
  constructor
  · rintro ⟨child, isFound⟩
    exact ⟨child, mem_children.mp (mem_children_of_child? isFound)⟩
  · rintro ⟨child, isEdge⟩
    apply Option.isSome_iff_exists.mp
    apply List.lookup_isSome_iff.mpr
    exact ⟨(name, child), mem_children.mpr isEdge, beq_self_eq_true name⟩

/-- If one edge at most leaves a node under a name, it leads to what the node has there. -/
theorem isChild_iff_of_only
    (isOnly : ∀ left right, ⟨id, name, left⟩ ∈ graph.edges →
      ⟨id, name, right⟩ ∈ graph.edges → left = right) :
    graph.IsChild id name child ↔ ⟨id, name, child⟩ ∈ graph.edges := by
  constructor
  · rintro ⟨newer, older, isSplit, _⟩
    simp [isSplit]
  · intro isEdge
    obtain ⟨found, isFound⟩ := exists_child?_iff.mpr ⟨child, isEdge⟩
    have isFoundEdge := mem_children.mp (mem_children_of_child? isFound)
    rw [isOnly child found isEdge isFoundEdge]
    exact child?_eq_some_iff.mp isFound

end Graph
end PackageFlags
