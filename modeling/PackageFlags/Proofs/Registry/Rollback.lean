import PackageFlags.Proofs.Registry.Growth

/-!
# Rolling back a registry

A rollback evicts the names behind a mark, one after another. For a registry that
has grown since the mark was set, the evicted nodes are exactly the new ones, so
that no edge between old nodes is lost and none at a new node is kept. Rolling back
gives exactly the registry that it has grown from.
-/

namespace PackageFlags
namespace Registry

/-- Whether one of some names has a node. -/
def Evicts (registry : Registry) (names : List String) (id : NodeId) : Prop :=
  ∃ name ∈ names, registry.find? name = some id

instance (registry : Registry) (names : List String) (id : NodeId) :
    Decidable (registry.Evicts names id) :=
  inferInstanceAs (Decidable (∃ name ∈ names, registry.find? name = some id))

theorem evicts_cons_iff
    (registry : Registry)
    (name : String)
    (rest : List String)
    (id : NodeId) :
    registry.Evicts (name :: rest) id ↔
      registry.find? name = some id ∨ (registry.evict name).Evicts rest id := by
  constructor
  · rintro ⟨other, member, isCached⟩
    by_cases same : other = name
    · exact Or.inl (same ▸ isCached)
    · rcases List.mem_cons.mp member with isFirst | isLater
      · exact absurd isFirst same
      · exact Or.inr ⟨other, isLater, by rw [find?_evict, if_neg same, isCached]⟩
  · rintro (isFirst | ⟨other, member, isCached⟩)
    · exact ⟨name, List.mem_cons_self, isFirst⟩
    · rw [find?_evict] at isCached
      split at isCached
      · contradiction
      · exact ⟨other, List.mem_cons_of_mem name member, isCached⟩

theorem journal_foldl_evict (names : List String) (registry : Registry) :
    (names.foldl evict registry).journal = registry.journal := by
  induction names generalizing registry with
  | nil => rfl
  | cons name rest restSame => rw [List.foldl_cons, restSame, journal_evict]

theorem find?_foldl_evict
    (names : List String)
    (registry : Registry)
    (other : String) :
    (names.foldl evict registry).find? other =
      if other ∈ names then none else registry.find? other := by
  induction names generalizing registry with
  | nil => simp
  | cons name rest restSame =>
      rw [List.foldl_cons, restSame, find?_evict]
      by_cases isLater : other ∈ rest
      · simp [isLater]
      · by_cases same : other = name <;> simp [isLater, same]

theorem packages_foldl_evict (names : List String) (registry : Registry) :
    (names.foldl evict registry).graph.packages =
      registry.graph.packages.filter
        fun entry => ¬registry.Evicts names entry.1 := by
  induction names generalizing registry with
  | nil => simp [Evicts]
  | cons name rest restSame =>
      rw [List.foldl_cons, restSame, packages_evict, List.filter_filter]
      apply List.filter_congr
      intro entry _
      simp [evicts_cons_iff, not_or, and_comm]

theorem edges_foldl_evict (names : List String) (registry : Registry) :
    (names.foldl evict registry).graph.edges =
      registry.graph.edges.filter
        fun edge => ¬registry.Evicts names edge.source
          ∧ ¬registry.Evicts names edge.target := by
  induction names generalizing registry with
  | nil => simp [Evicts]
  | cons name rest restSame =>
      rw [List.foldl_cons, restSame, edges_evict, List.filter_filter]
      apply List.filter_congr
      intro edge _
      rw [Bool.eq_iff_iff]
      simp only [Bool.and_eq_true, decide_eq_true_eq, evicts_cons_iff, not_or]
      tauto

/-- Of the nodes of a registry that has grown, exactly the new ones have a name
that the journal lists behind the old names. -/
theorem Extends.evicts_iff
    {before after : Registry}
    (grows : Extends before after)
    (consistentBefore : Consistent before)
    (consistentAfter : Consistent after)
    {added : List String}
    (isJournal : before.journal ++ added = after.journal)
    {id : NodeId}
    (member : id ∈ after.graph.nodes) :
    after.Evicts added.reverse id ↔ id ∉ before.graph.nodes := by
  constructor
  · rintro ⟨name, isAdded, isCached⟩ isOld
    obtain ⟨oldName, wasCached⟩ := consistentBefore.mem_nodes_iff.mp isOld
    have same : oldName = name := consistentAfter.find?_injective
      (grows.find?_eq_some consistentBefore wasCached) isCached
    have nodup := isJournal ▸ consistentAfter.nodup
    exact (List.nodup_append.mp nodup).2.2 name
      (same ▸ consistentBefore.listed oldName id wasCached)
      name (List.mem_reverse.mp isAdded) rfl
  · intro isNew
    obtain ⟨name, isCached⟩ := consistentAfter.mem_nodes_iff.mp member
    refine ⟨name, List.mem_reverse.mpr ?_, isCached⟩
    have isListed := consistentAfter.listed name id isCached
    rw [← isJournal] at isListed
    rcases List.mem_append.mp isListed with isOld | isAdded
    · rw [grows.cache name isOld] at isCached
      exact absurd (consistentBefore.mem_nodes_iff.mpr ⟨name, isCached⟩) isNew
    · exact isAdded

/-- The packages of the registry that a registry has grown from are those at old
nodes. -/
theorem Extends.filter_packages
    {before after : Registry}
    (grows : Extends before after)
    {isOld : NodeId -> Bool}
    (isOld_iff : ∀ id ∈ after.graph.nodes,
      (isOld id = true ↔ id ∈ before.graph.nodes)) :
    after.graph.packages.filter (fun entry => isOld entry.1) =
      before.graph.packages := by
  obtain ⟨added, isPackages⟩ := grows.packages
  have distinct := after.graph.distinct
  rw [← isPackages, List.map_append, List.nodup_append] at distinct
  have member : ∀ entry ∈ before.graph.packages ++ added,
      entry.1 ∈ after.graph.nodes := fun entry isEntry =>
    List.mem_map_of_mem (isPackages ▸ isEntry)
  rw [← isPackages, List.filter_append,
    List.filter_eq_self.mpr, List.filter_eq_nil_iff.mpr, List.append_nil]
  · intro entry isAdded old
    have wasNode := (isOld_iff entry.1
      (member entry (List.mem_append_right _ isAdded))).mp old
    exact distinct.2.2 entry.1 wasNode entry.1 (List.mem_map_of_mem isAdded) rfl
  · intro entry isEntry
    exact (isOld_iff entry.1 (member entry (List.mem_append_left _ isEntry))).mpr
      (List.mem_map_of_mem isEntry)

/-- The edges of the registry that a registry has grown from are those between
old nodes. -/
theorem Extends.filter_edges
    {before after : Registry}
    (grows : Extends before after)
    {isOld : NodeId -> Bool}
    (isOld_iff : ∀ id ∈ after.graph.nodes,
      (isOld id = true ↔ id ∈ before.graph.nodes)) :
    after.graph.edges.filter (fun edge => isOld edge.source && isOld edge.target) =
      before.graph.edges := by
  obtain ⟨added, isEdges, addedNew⟩ := grows.edges
  rw [isEdges, List.filter_append,
    List.filter_eq_nil_iff.mpr, List.filter_eq_self.mpr, List.nil_append]
  · intro edge isEdge
    have ends := before.graph.closed edge isEdge
    rw [Bool.and_eq_true]
    exact ⟨(isOld_iff _ (grows.mem_nodes ends.1)).mpr ends.1,
      (isOld_iff _ (grows.mem_nodes ends.2)).mpr ends.2⟩
  · intro edge isAdded old
    have ends := after.graph.closed edge
      (isEdges ▸ List.mem_append_left _ isAdded)
    rw [Bool.and_eq_true] at old
    exact addedNew edge isAdded ((isOld_iff _ ends.1).mp old.1)

/-- The names of the registry that a registry has grown from are those that the
journal does not list behind them. -/
theorem Extends.find?_before
    {before after : Registry}
    (grows : Extends before after)
    (consistentBefore : Consistent before)
    (consistentAfter : Consistent after)
    {added : List String}
    (isJournal : before.journal ++ added = after.journal)
    (name : String) :
    (if name ∈ added.reverse then none else after.find? name) =
      before.find? name := by
  have nodup := isJournal ▸ consistentAfter.nodup
  by_cases isOld : name ∈ before.journal
  · have notAdded : name ∉ added.reverse := fun isAdded =>
      (List.nodup_append.mp nodup).2.2
        name isOld name (List.mem_reverse.mp isAdded) rfl
    rw [if_neg notAdded, grows.cache name isOld]
  · have wasNew : before.find? name = none := by
      rw [consistentBefore.mem_journal_iff, ← Option.isSome_iff_exists] at isOld
      simpa using isOld
    rw [wasNew]
    split
    · rfl
    · rename_i notAdded
      by_contra isCached
      obtain ⟨id, isNode⟩ := Option.ne_none_iff_exists'.mp isCached
      have listed := consistentAfter.listed name id isNode
      rw [← isJournal, List.mem_append] at listed
      exact listed.elim isOld fun isAdded =>
        notAdded (List.mem_reverse.mpr isAdded)

/-- Rolling back gives the registry that a registry has grown from. -/
theorem Extends.rollback
    {before after : Registry}
    (grows : Extends before after)
    (consistentBefore : Consistent before)
    (consistentAfter : Consistent after) :
    after.rollback before.journal.length = before := by
  obtain ⟨added, isJournal⟩ := grows.journal
  have taken : after.journal.take before.journal.length = before.journal := by
    simp [← isJournal]
  have dropped : after.journal.drop before.journal.length = added := by
    simp [← isJournal]
  have isOld_iff : ∀ id ∈ after.graph.nodes,
      (decide (¬after.Evicts added.reverse id) = true ↔
        id ∈ before.graph.nodes) := by
    intro id member
    rw [decide_eq_true_eq, grows.evicts_iff consistentBefore consistentAfter
      isJournal member, not_not]
  unfold Registry.rollback
  rw [taken, dropped]
  apply Registry.ext
  · apply Graph.ext
    · rw [packages_foldl_evict]
      exact grows.filter_packages isOld_iff
    · rw [edges_foldl_evict]
      simp only [Bool.decide_and]
      exact grows.filter_edges isOld_iff
  · apply NameMap.ext
    intro name
    exact (find?_foldl_evict _ _ name).trans
      (grows.find?_before consistentBefore consistentAfter isJournal name)
  · rw [journal_foldl_evict]

end Registry
end PackageFlags
