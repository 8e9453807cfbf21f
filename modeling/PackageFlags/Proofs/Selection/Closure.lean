import Mathlib.Data.List.Nodup
import PackageFlags.Proofs.Outcome
import PackageFlags.Proofs.Selection.Additions

/-!
# Propagation selects what is needed

While demands are met, every selected component is needed, and everything that a
selected component refers to is selected already or asked for by a demand that is
still to be met. When no demands are left, the selected components are closed under
references, so they are just the needed ones.
-/

namespace PackageFlags
namespace Selection

/-- A selected component of a node refers to a dependency. -/
def RefersTo
    (graph : Graph)
    (selection : Selection)
    (id : NodeId)
    (dependency : String) : Prop :=
  ∃ name ∈ selection.components id, ∃ reference, graph.Refers id name reference
    ∧ reference.package ≠ "" ∧ reference.package = dependency

/-- Only what is needed is selected, and only what is referred to is used. -/
structure Sound
    (graph : Graph)
    (root : NodeId)
    (wanted : Wanted)
    (selection : Selection) : Prop where
  /-- Selected components are needed. -/
  needed : ∀ {id name}, name ∈ selection.components id →
    graph.Needed root wanted id name
  /-- Selected components are defined. -/
  defined : ∀ {id name}, name ∈ selection.components id → graph.Defines id name
  /-- No component is selected twice. -/
  distinct : selection.selected.Nodup
  /-- Used dependencies are there, and a selected component refers to each. -/
  justified : ∀ {id dependency}, (id, dependency) ∈ selection.used →
    RefersTo graph selection id dependency
      ∧ ∃ child, graph.child? id dependency = some child

/-- A demand is due when a selected component refers to its dependency and all that
it asks for is needed. -/
structure Due
    (graph : Graph)
    (root : NodeId)
    (wanted : Wanted)
    (selection : Selection)
    (demand : Demand) : Prop where
  referred : RefersTo graph selection demand.node demand.dependency
  needed : ∀ {child name},
    graph.child? demand.node demand.dependency = some child →
    graph.Asks child demand.wanted name → graph.Needed root wanted child name

/-- What selected components refer to is selected, or it is still demanded. -/
structure Complete
    (graph : Graph)
    (selection : Selection)
    (demands : List Demand) : Prop where
  /-- References inside a package are followed. -/
  internal : ∀ {id name reference meant}, name ∈ selection.components id →
    graph.Refers id name reference → reference.package = "" →
    graph.Means id reference meant → meant ∈ selection.components id
  /-- References to dependencies are followed or demanded. -/
  external : ∀ {id name reference child meant},
    name ∈ selection.components id → graph.Refers id name reference →
    reference.package ≠ "" →
    graph.child? id reference.package = some child →
    graph.Means child reference meant →
    meant ∈ selection.components child
      ∨ ∃ demand ∈ demands, demand.node = id
        ∧ demand.dependency = reference.package
        ∧ graph.Asks child demand.wanted meant
  /-- Dependencies that are referred to are used or demanded. -/
  used : ∀ {id dependency child}, RefersTo graph selection id dependency →
    graph.child? id dependency = some child →
    (id, dependency) ∈ selection.used
      ∨ ∃ demand ∈ demands, demand.node = id ∧ demand.dependency = dependency

/-- A demand is met when its dependency is missing, or used with all that is asked
of it selected. -/
def Met (graph : Graph) (selection : Selection) (demand : Demand) : Prop :=
  ∀ child, graph.child? demand.node demand.dependency = some child →
    (demand.node, demand.dependency) ∈ selection.used
      ∧ ∀ name, graph.Asks child demand.wanted name →
        name ∈ selection.components child

variable {graph : Graph} {root : NodeId} {wanted : Wanted}
variable {selection : Selection} {id : NodeId}

/-- Demands that are met need not be kept. -/
theorem Complete.drop
    {demands fewer : List Demand}
    (complete : Complete graph selection demands)
    (met : ∀ demand ∈ demands, demand ∈ fewer ∨ Met graph selection demand) :
    Complete graph selection fewer where
  internal := complete.internal
  external := by
    intro id name reference child meant isSelected refers isExternal isChild means
    rcases complete.external isSelected refers isExternal isChild means with
      isMeant | ⟨demand, isDemand, rfl, isDependency, asks⟩
    · exact Or.inl isMeant
    · rcases met demand isDemand with isKept | isMet
      · exact Or.inr ⟨demand, isKept, rfl, isDependency, asks⟩
      · exact Or.inl ((isMet child (isDependency ▸ isChild)).2 meant asks)
  used := by
    intro id dependency child refersTo isChild
    rcases complete.used refersTo isChild with
      isUsed | ⟨demand, isDemand, rfl, rfl⟩
    · exact Or.inl isUsed
    · rcases met demand isDemand with isKept | isMet
      · exact Or.inr ⟨demand, isKept, rfl, rfl⟩
      · exact Or.inl (isMet child isChild).1

/-! ## Using a dependency -/

@[simp] theorem components_use
    (selection : Selection)
    (id other : NodeId)
    (dependency : String) :
    (selection.use id dependency).components other =
      selection.components other := by
  simp [components]

theorem refersTo_use
    {other : NodeId}
    {dependency name : String} :
    RefersTo graph (selection.use id dependency) other name ↔
      RefersTo graph selection other name := by
  unfold RefersTo
  rw [components_use]

theorem mem_used_use
    {other : NodeId}
    {dependency name : String} :
    (other, name) ∈ (selection.use id dependency).used ↔
      (other, name) ∈ selection.used ∨ other = id ∧ name = dependency := by
  unfold use
  split
  · rename_i isUsed
    constructor
    · exact Or.inl
    · rintro (isOld | ⟨rfl, rfl⟩)
      · exact isOld
      · simpa [uses] using isUsed
  · simp

/-- Using a dependency that is due is sound. -/
theorem Sound.use
    (sound : Sound graph root wanted selection)
    {dependency : String}
    {child : NodeId}
    (refersTo : RefersTo graph selection id dependency)
    (isChild : graph.child? id dependency = some child) :
    Sound graph root wanted (selection.use id dependency) where
  needed := by
    simp only [components_use]
    exact sound.needed
  defined := by
    simp only [components_use]
    exact sound.defined
  distinct := by simpa using sound.distinct
  justified := by
    intro other name isUsed
    rw [refersTo_use]
    rcases mem_used_use.mp isUsed with isOld | ⟨rfl, rfl⟩
    · exact sound.justified isOld
    · exact ⟨refersTo, child, isChild⟩

/-- Using a dependency keeps a selection complete. -/
theorem Complete.use
    {demands : List Demand}
    (complete : Complete graph selection demands)
    (dependency : String) :
    Complete graph (selection.use id dependency) demands where
  internal := by
    simp only [components_use]
    exact complete.internal
  external := by
    simp only [components_use]
    exact complete.external
  used := by
    intro other name child refersTo isChild
    rcases complete.used (refersTo_use.mp refersTo) isChild with isOld | isDemanded
    · exact Or.inl (mem_used_use.mpr (Or.inl isOld))
    · exact Or.inr isDemanded

/-! ## Selecting what a visit adds -/

section Select

variable {asked : Wanted} {package : Package} {added : List String}

/-- The components of a node after more are selected on some node. -/
theorem mem_components_select
    {other : NodeId}
    {name : String} :
    name ∈ (selection.select id added).components other ↔
      name ∈ selection.components other ∨ other = id ∧ name ∈ added := by
  rw [mem_components, mem_components, selected_select, List.mem_append,
    List.mem_map]
  constructor
  · rintro (isOld | ⟨_, isAdded, same⟩)
    · exact Or.inl isOld
    · cases same
      exact Or.inr ⟨rfl, isAdded⟩
  · rintro (isOld | ⟨rfl, isAdded⟩)
    · exact Or.inl isOld
    · exact Or.inr ⟨name, isAdded, rfl⟩

/-- Selected components keep what they refer to. -/
theorem RefersTo.select
    {other : NodeId}
    {dependency : String}
    (refersTo : RefersTo graph selection other dependency) :
    RefersTo graph (selection.select id added) other dependency := by
  obtain ⟨name, isSelected, refers⟩ := refersTo
  exact ⟨name, mem_components_select.mpr (Or.inl isSelected), refers⟩

/-- The needed components of a node are closed inside its package. -/
theorem closedInside_needed (isPackage : graph.package? id = some package) :
    ClosedInside package (graph.Needed root wanted id) := by
  intro name component other needed isComponent isReferred
  obtain ⟨reference, isReference, isInternal, isMeant⟩ :=
    Wanted.mem_internalNames.mp isReferred
  have refers : graph.Refers id name reference :=
    ⟨package, component, isPackage, isComponent, isReference⟩
  exact Graph.Needed.internal needed refers isInternal
    ⟨package, isPackage, isMeant⟩

/-- Selecting what a visit adds is sound if what is asked for is needed. -/
theorem Sound.select
    (sound : Sound graph root wanted selection)
    (isPackage : graph.package? id = some package)
    (isAdded : additions package (selection.components id)
      (asked.names package) = .ok added)
    (areNeeded : ∀ name ∈ asked.names package,
      graph.Needed root wanted id name) :
    Sound graph root wanted (selection.select id added) := by
  obtain ⟨areNames, addedNodup, areNew⟩ := (additions_fresh isAdded).distinct
  exact {
    needed := by
      intro other name isSelected
      rcases mem_components_select.mp isSelected with isOld | ⟨rfl, isNew⟩
      · exact sound.needed isOld
      · apply additions_induction (closedInside_needed isPackage) isAdded areNeeded
        exact isNew
    defined := by
      intro other name isSelected
      rcases mem_components_select.mp isSelected with isOld | ⟨rfl, isNew⟩
      · exact sound.defined isOld
      · exact ⟨package, isPackage, areNames isNew⟩
    distinct := by
      rw [selected_select]
      refine List.nodup_append.mpr ⟨sound.distinct,
        addedNodup.map fun _ _ same => (Prod.mk.inj same).2, ?_⟩
      rintro old isOld new isNew rfl
      obtain ⟨name, isName, rfl⟩ := List.mem_map.mp isNew
      exact areNew name isName (mem_components.mpr isOld)
    justified := by
      intro other dependency isUsed
      obtain ⟨refersTo, isChild⟩ := sound.justified isUsed
      exact ⟨refersTo.select, isChild⟩ }

/-- The demands of a visit are due. -/
theorem due_demandsOf
    (isPackage : graph.package? id = some package)
    (sound : Sound graph root wanted (selection.select id added))
    {demand : Demand}
    (isDemand : demand ∈ demandsOf id package added) :
    Due graph root wanted (selection.select id added) demand := by
  have atNode := node_of_mem_demandsOf isDemand
  have isSelected : ∀ name ∈ added,
      name ∈ (selection.select id added).components id := fun name isAdded =>
    mem_components_select.mpr (Or.inr ⟨rfl, isAdded⟩)
  constructor
  · obtain ⟨name, isAdded, reference, refers, isExternal, isDependency⟩ :=
      (dependencies_demandsOf isPackage).mp ⟨demand, isDemand, rfl⟩
    rw [atNode]
    exact ⟨name, isSelected name isAdded, reference, refers, isExternal,
      isDependency⟩
  · rintro child meant isChild ⟨other, isOther, isAsked⟩
    obtain ⟨name, isAdded, reference, refers, isExternal, isDependency, isMeant⟩ :=
      (asked_demandsOf isPackage).mp ⟨demand, isDemand, rfl, isAsked⟩
    rw [atNode, ← isDependency] at isChild
    have needed := sound.needed (isSelected name isAdded)
    exact Graph.Needed.external needed refers isExternal
      (Graph.child?_eq_some_iff.mp isChild) ⟨other, isOther, isMeant⟩

/-- Demands that are due stay so when more is selected. -/
theorem Due.select
    {demand : Demand}
    (due : Due graph root wanted selection demand) :
    Due graph root wanted (selection.select id added) demand where
  referred := due.referred.select
  needed := due.needed

/-- Selecting what a visit adds is complete with the demands of the visit. -/
theorem Complete.select
    {demands : List Demand}
    (complete : Complete graph selection demands)
    (isPackage : graph.package? id = some package)
    (isAdded : additions package (selection.components id)
      (asked.names package) = .ok added) :
    Complete graph (selection.select id added)
      (demandsOf id package added ++ demands) where
  internal := by
    intro other name reference meant isSelected refers isInternal means
    rcases mem_components_select.mp isSelected with isOld | ⟨rfl, isNew⟩
    · apply mem_components_select.mpr
      exact Or.inl (complete.internal isOld refers isInternal means)
    · obtain ⟨owner, component, isOwner, isComponent, isReference⟩ := refers
      obtain ⟨target, isTarget, isMeant⟩ := means
      cases isPackage.symm.trans isOwner
      cases isPackage.symm.trans isTarget
      rw [components_select]
      apply internalNames_subset_additions isAdded isNew isComponent
      apply Wanted.mem_internalNames.mpr
      exact ⟨reference, isReference, isInternal, isMeant⟩
  external := by
    intro other name reference child meant isSelected refers isExternal isChild
      means
    rcases mem_components_select.mp isSelected with isOld | ⟨rfl, isNew⟩
    · rcases complete.external isOld refers isExternal isChild means with
        isMeant | ⟨demand, isDemand, isAsked⟩
      · exact Or.inl (mem_components_select.mpr (Or.inl isMeant))
      · exact Or.inr ⟨demand, List.mem_append_right _ isDemand, isAsked⟩
    · obtain ⟨target, isTarget, isMeant⟩ := means
      obtain ⟨demand, isDemand, isDependency, isAsked⟩ :=
        (asked_demandsOf isPackage).mpr
          ⟨name, isNew, reference, refers, isExternal, rfl, isMeant⟩
      exact Or.inr ⟨demand, List.mem_append_left _ isDemand,
        node_of_mem_demandsOf isDemand, isDependency, target, isTarget, isAsked⟩
  used := by
    rintro other dependency child ⟨name, isSelected, refers⟩ isChild
    rcases mem_components_select.mp isSelected with isOld | ⟨rfl, isNew⟩
    · rcases complete.used ⟨name, isOld, refers⟩ isChild with
        isUsed | ⟨demand, isDemand, isAt⟩
      · exact Or.inl isUsed
      · exact Or.inr ⟨demand, List.mem_append_right _ isDemand, isAt⟩
    · obtain ⟨demand, isDemand, isDependency⟩ :=
        (dependencies_demandsOf isPackage).mpr ⟨name, isNew, refers⟩
      exact Or.inr ⟨demand, List.mem_append_left _ isDemand,
        node_of_mem_demandsOf isDemand, isDependency⟩

end Select

/-! ## Meeting demands -/

/-- A failure names a needed component that its package does not define. -/
def Misses
    (graph : Graph)
    (root : NodeId)
    (wanted : Wanted)
    (failure : Failure) : Prop :=
  ∃ id name package, graph.Needed root wanted id name
    ∧ graph.package? id = some package ∧ name ∉ package.components.names
    ∧ failure = .missingComponents package.name [name]

/-- What a visit selects and demands. -/
theorem visit_eq_ok
    {asked : Wanted}
    {next : Selection}
    {more : List Demand}
    (isVisited : visit graph selection id asked = .ok (next, more)) :
    ∃ package added, graph.package? id = some package
      ∧ additions package (selection.components id) (asked.names package) =
          .ok added
      ∧ next = selection.select id added ∧ more = demandsOf id package added := by
  unfold visit at isVisited
  split at isVisited
  · simp at isVisited
  · rename_i package isPackage
    split at isVisited
    · simp at isVisited
    · rename_i added isAdded
      cases isVisited
      exact ⟨package, added, isPackage, isAdded, rfl, rfl⟩

/-- A visit of a node that is asked for needed components fails for one of them or
one that they need. -/
theorem misses_of_visit
    {asked : Wanted}
    {failure : Failure}
    (isNode : id ∈ graph.nodes)
    (areNeeded : ∀ {name}, graph.Asks id asked name →
      graph.Needed root wanted id name)
    (fails : visit graph selection id asked = .error failure) :
    Misses graph root wanted failure := by
  obtain ⟨package, isPackage⟩ := Graph.mem_nodes_iff.mp isNode
  simp only [visit, isPackage] at fails
  split at fails
  · rename_i cause isMissing
    cases fails
    obtain ⟨name, needed, isUndefined, isCause⟩ :=
      additions_error (closedInside_needed isPackage) isMissing
        fun name isAsked =>
          areNeeded ⟨package, isPackage, Wanted.mem_names.mp isAsked⟩
    exact ⟨id, name, package, needed, isPackage, isUndefined, isCause⟩
  · simp at fails

/-- The state of propagation while demands are still to be met. -/
structure Progress
    (graph : Graph)
    (root : NodeId)
    (wanted : Wanted)
    (selection : Selection)
    (demands : List Demand) : Prop where
  sound : Sound graph root wanted selection
  due : ∀ demand ∈ demands, Due graph root wanted selection demand
  complete : Complete graph selection demands

theorem Progress.empty : Progress graph root wanted Selection.empty [] where
  sound := {
    needed := fun isSelected => absurd isSelected List.not_mem_nil
    defined := fun isSelected => absurd isSelected List.not_mem_nil
    distinct := List.nodup_nil
    justified := fun isUsed => absurd isUsed List.not_mem_nil }
  due := by simp
  complete := {
    internal := fun isSelected => absurd isSelected List.not_mem_nil
    external := fun isSelected => absurd isSelected List.not_mem_nil
    used := fun ⟨_, isSelected, _⟩ => absurd isSelected List.not_mem_nil }

/-- A demand that is met need not be kept. -/
theorem Progress.drop
    {met : Demand}
    {before after : List Demand}
    (progress : Progress graph root wanted selection (before ++ met :: after))
    (isMet : Met graph selection met) :
    Progress graph root wanted selection (before ++ after) where
  sound := progress.sound
  due := by
    intro demand isDemand
    apply progress.due demand
    rcases List.mem_append.mp isDemand with isBefore | isAfter
    · exact List.mem_append_left _ isBefore
    · exact List.mem_append_right _ (List.mem_cons_of_mem met isAfter)
  complete := by
    refine progress.complete.drop fun demand isDemand => ?_
    rcases List.mem_append.mp isDemand with isBefore | isRest
    · exact Or.inl (List.mem_append_left after isBefore)
    · rcases List.mem_cons.mp isRest with rfl | isAfter
      · exact Or.inr isMet
      · exact Or.inl (List.mem_append_right before isAfter)

/-- Using the dependency of a demand that is next. -/
theorem Progress.use
    {demand : Demand}
    {rest : List Demand}
    {child : NodeId}
    (progress : Progress graph root wanted selection (demand :: rest))
    (isChild : graph.child? demand.node demand.dependency = some child) :
    Progress graph root wanted
      (selection.use demand.node demand.dependency) (demand :: rest) where
  sound := progress.sound.use
    (progress.due demand List.mem_cons_self).referred isChild
  due := by
    intro other isDemand
    have isDue := progress.due other isDemand
    exact ⟨refersTo_use.mpr isDue.referred, isDue.needed⟩
  complete := progress.complete.use demand.dependency

/-- A visit that is asked for needed components selects them, and its demands come
to those that are still to be met. -/
theorem Progress.visit
    {asked : Wanted}
    {next : Selection}
    {more demands : List Demand}
    (progress : Progress graph root wanted selection demands)
    (areNeeded : ∀ {name}, graph.Asks id asked name →
      graph.Needed root wanted id name)
    (isVisited : visit graph selection id asked = .ok (next, more)) :
    Progress graph root wanted next (more ++ demands)
      ∧ selection.selected ⊆ next.selected ∧ next.used = selection.used
      ∧ ∀ name, graph.Asks id asked name → name ∈ next.components id := by
  obtain ⟨package, added, isPackage, isAdded, rfl, rfl⟩ := visit_eq_ok isVisited
  have sound := progress.sound.select isPackage isAdded
    fun name isAsked => areNeeded ⟨package, isPackage, Wanted.mem_names.mp isAsked⟩
  refine ⟨⟨sound, ?_, progress.complete.select isPackage isAdded⟩,
    List.subset_append_left _ _, rfl, ?_⟩
  · intro demand isDemand
    rcases List.mem_append.mp isDemand with isNew | isOld
    · exact due_demandsOf isPackage sound isNew
    · exact (progress.due demand isOld).select
  · rintro name ⟨owner, isOwner, isAsked⟩
    cases isPackage.symm.trans isOwner
    rw [components_select]
    exact subset_additions isAdded (Wanted.mem_names.mpr isAsked)

/-- A demand of a dependency that is missing is dropped. -/
theorem Progress.skip
    {demand : Demand}
    {rest : List Demand}
    (progress : Progress graph root wanted selection (demand :: rest))
    (isMissing : graph.child? demand.node demand.dependency = none) :
    Progress graph root wanted selection rest := by
  have isMet : Met graph selection demand := by
    intro child isChild
    rw [isMissing] at isChild
    contradiction
  have kept : Progress graph root wanted selection ([] ++ rest) := progress.drop isMet
  exact kept

/-- A demand whose dependency is visited is replaced by the demands of the visit. -/
theorem Progress.follow
    {demand : Demand}
    {rest more : List Demand}
    {child : NodeId}
    {next : Selection}
    (progress : Progress graph root wanted selection (demand :: rest))
    (isChild : graph.child? demand.node demand.dependency = some child)
    (isVisited : Selection.visit graph
      (selection.use demand.node demand.dependency) child demand.wanted =
        .ok (next, more)) :
    Progress graph root wanted next (more ++ rest)
      ∧ selection.selected ⊆ next.selected := by
  have isDue := progress.due demand List.mem_cons_self
  obtain ⟨further, selectedMore, usedSame, areSelected⟩ :=
    (progress.use isChild).visit (isDue.needed isChild) isVisited
  have isMet : Met graph next demand := by
    intro other isOther
    cases isChild.symm.trans isOther
    refine ⟨?_, areSelected⟩
    rw [usedSame]
    apply mem_used_use.mpr
    exact Or.inr ⟨rfl, rfl⟩
  rw [selected_use] at selectedMore
  exact ⟨further.drop isMet, selectedMore⟩

/-- The first visit selects what is asked of the root, and its demands are to be met. -/
theorem Progress.start
    {first : Selection}
    {demands : List Demand}
    (isVisited : Selection.visit graph Selection.empty root wanted =
      .ok (first, demands)) :
    Progress graph root wanted first demands
      ∧ ∀ name, graph.Asks root wanted name → name ∈ first.components root := by
  obtain ⟨progress, _, _, areSelected⟩ :=
    Progress.empty.visit Graph.Needed.asked isVisited
  rw [List.append_nil] at progress
  exact ⟨progress, areSelected⟩

/-- Meeting demands ends with all of them met, or it fails for a needed component
that is not defined. -/
theorem Progress.meet
    {warnings : List Warning}
    {demands : List Demand}
    (progress : Progress graph root wanted selection demands) :
    match (Selection.meet graph warnings selection demands).outcome with
    | .ok final =>
        Progress graph root wanted final [] ∧ selection.selected ⊆ final.selected
    | .error failure => Misses graph root wanted failure := by
  -- each step of the walk keeps `Progress`; a visit puts its own demands first
  fun_induction Selection.meet graph warnings selection demands with
  | case1 warnings selection => exact ⟨progress, List.Subset.refl _⟩
  | case2 warnings selection demand rest isMissing restMet =>
      exact restMet (progress.skip isMissing)
  | case3 warnings selection demand rest child isChild failure fails =>
      have isNode : child ∈ graph.nodes := by
        apply Graph.mem_nodes_of_mem_children
        exact Graph.mem_children_of_child? isChild
      have isDue := progress.due demand List.mem_cons_self
      exact misses_of_visit isNode (isDue.needed isChild) fails
  | case4 warnings selection demand rest child isChild next more isVisited
      restMet =>
      obtain ⟨further, selectedMore⟩ := progress.follow isChild isVisited
      have result := restMet further
      split at result
      · exact ⟨result.1, List.Subset.trans selectedMore result.2⟩
      · exact result

/-- A selection in which all demands are met. -/
structure Settled
    (graph : Graph)
    (root : NodeId)
    (wanted : Wanted)
    (selection : Selection) : Prop where
  sound : Sound graph root wanted selection
  complete : Complete graph selection []
  /-- What is asked of the root is selected. -/
  hasAsked : ∀ {name}, graph.Asks root wanted name →
    name ∈ selection.components root

/-- When all demands are met, the selected components are those that are needed. -/
theorem Settled.mem_components_iff
    (settled : Settled graph root wanted selection)
    {name : String} :
    name ∈ selection.components id ↔ graph.Needed root wanted id name := by
  refine ⟨settled.sound.needed, fun needed => ?_⟩
  induction needed with
  | asked asks => exact settled.hasAsked asks
  | internal _ refers isInternal means isSelected =>
      exact settled.complete.internal isSelected refers isInternal means
  | external _ refers isExternal isChild means isSelected =>
      rcases settled.complete.external isSelected refers isExternal
        (Graph.child?_eq_some_iff.mpr isChild) means with
        isMeant | ⟨demand, isDemand, _⟩
      · exact isMeant
      · exact absurd isDemand List.not_mem_nil

/-- When all demands are met, the used dependencies are those that selected
components refer to. -/
theorem Settled.uses_iff
    (settled : Settled graph root wanted selection)
    {dependency : String} :
    selection.uses id dependency = true ↔
      (∃ child, ⟨id, dependency, child⟩ ∈ graph.edges)
        ∧ RefersTo graph selection id dependency := by
  rw [uses, decide_eq_true_eq, ← Graph.exists_child?_iff]
  constructor
  · intro isUsed
    exact (settled.sound.justified isUsed).symm
  · rintro ⟨⟨child, isChild⟩, refersTo⟩
    rcases settled.complete.used refersTo isChild with
      isUsed | ⟨demand, isDemand, _⟩
    · exact isUsed
    · exact absurd isDemand List.not_mem_nil

/-- The components of a node in a selection without repetitions. -/
theorem nodup_components
    (distinct : selection.selected.Nodup)
    (id : NodeId) :
    (selection.components id).Nodup := by
  refine distinct.filterMap ?_
  rintro ⟨left, name⟩ ⟨right, other⟩ shared isLeft isRight
  simp only [Option.mem_def, Option.ite_none_right_eq_some,
    Option.some.injEq] at isLeft isRight
  obtain ⟨rfl, rfl⟩ := isLeft
  obtain ⟨rfl, rfl⟩ := isRight
  rfl

/-- Propagation succeeds from nodes of the graph only. -/
theorem mem_nodes_of_propagate
    (isPropagated : (propagate graph root wanted).outcome = .ok selection) :
    root ∈ graph.nodes := by
  unfold propagate at isPropagated
  cases isVisited : visit graph empty root wanted with
  | error failure => simp [isVisited] at isPropagated
  | ok visited =>
      obtain ⟨package, _, isPackage, _⟩ := visit_eq_ok isVisited
      exact Graph.mem_nodes_of_package? isPackage

/-- When propagation succeeds, all demands have been met. -/
theorem settled_of_propagate
    (isPropagated : (propagate graph root wanted).outcome = .ok selection) :
    Settled graph root wanted selection := by
  unfold propagate at isPropagated
  cases isVisited : visit graph empty root wanted with
  | error failure => simp [isVisited] at isPropagated
  | ok visited =>
      obtain ⟨first, demands⟩ := visited
      simp only [isVisited] at isPropagated
      obtain ⟨progress, areSelected⟩ := Progress.start isVisited
      have result := @Progress.meet _ _ _ _ [] _ progress
      rw [isPropagated] at result
      refine ⟨result.1.sound, result.1.complete, fun asks => ?_⟩
      apply mem_components.mpr
      exact result.2 (mem_components.mp (areSelected _ asks))

/-- When propagation from a node of the graph fails, a needed component is not
defined. -/
theorem misses_of_propagate
    (isNode : root ∈ graph.nodes)
    {failure : Failure}
    (fails : (propagate graph root wanted).outcome = .error failure) :
    Misses graph root wanted failure := by
  unfold propagate at fails
  cases isVisited : visit graph empty root wanted with
  | error cause =>
      simp only [isVisited, Except.error.injEq] at fails
      rw [← fails]
      exact misses_of_visit isNode Graph.Needed.asked isVisited
  | ok visited =>
      obtain ⟨first, demands⟩ := visited
      simp only [isVisited] at fails
      have result := @Progress.meet _ _ _ _ [] _ (Progress.start isVisited).1
      rw [fails] at result
      exact result

/-- Propagation succeeds exactly if all needed components are defined, and its
failures name a needed one that is not. It selects each needed component once and
nothing else, and uses the dependencies that selected components refer to. -/
theorem propagate_least (isNode : root ∈ graph.nodes) :
    ((∃ selection, (propagate graph root wanted).outcome = .ok selection) ↔
        ∀ id name, graph.Needed root wanted id name → graph.Defines id name)
      ∧ (∀ failure, (propagate graph root wanted).outcome = .error failure →
          ∃ id name package, graph.Needed root wanted id name
            ∧ graph.package? id = some package
            ∧ name ∉ package.components.names
            ∧ failure = .missingComponents package.name [name])
      ∧ ∀ selection, (propagate graph root wanted).outcome = .ok selection →
          (∀ id, (selection.components id).Nodup
            ∧ ∀ name, name ∈ selection.components id ↔
                graph.Needed root wanted id name)
          ∧ ∀ id dependency, selection.uses id dependency = true ↔
              (∃ child, ⟨id, dependency, child⟩ ∈ graph.edges)
                ∧ ∃ name ∈ selection.components id, ∃ reference,
                    graph.Refers id name reference
                      ∧ reference.package ≠ ""
                      ∧ reference.package = dependency := by
  cases outcome : (propagate graph root wanted).outcome with
  | error failure =>
      have misses := misses_of_propagate isNode outcome
      refine ⟨⟨by simp, fun allDefined => ?_⟩, ?_, by simp⟩
      · obtain ⟨id, name, package, needed, isPackage, isUndefined, _⟩ := misses
        obtain ⟨owner, isOwner, isDefined⟩ := allDefined id name needed
        cases isPackage.symm.trans isOwner
        exact absurd isDefined isUndefined
      · rintro _ ⟨⟩
        exact misses
  | ok selection =>
      have settled := settled_of_propagate outcome
      refine ⟨⟨fun _ id name needed => ?_, fun _ => ⟨selection, rfl⟩⟩, by simp, ?_⟩
      · exact settled.sound.defined (settled.mem_components_iff.mpr needed)
      · rintro _ ⟨⟩
        exact ⟨fun id => ⟨nodup_components settled.sound.distinct id,
          fun _ => settled.mem_components_iff⟩, fun _ _ => settled.uses_iff⟩

/-- A package with one component, which makes one reference. -/
def referring (name component reference : String) : Package where
  name := name
  cpsVersion := supportedCpsVersion
  components := NameMap.empty.insert component
    { kind := .interface, requires := [Reference.parse reference] }
  compatVersion := none
  version := none
  versionSchema := .simple
  defaultComponents := none
  requires := NameMap.empty
  root := ⟨""⟩
  source := ⟨""⟩

theorem refers_referring
    {name component reference : String}
    (isPackage : graph.package? id = some (referring name component reference))
    {other : String}
    {found : Reference} :
    graph.Refers id other found ↔
      other = component ∧ found = Reference.parse reference := by
  unfold Graph.Refers
  by_cases isComponent : other = component
  · simp [isPackage, referring, isComponent]
  · simp [isPackage, referring, isComponent]

/-- Two packages whose components need each other. -/
def mutualGraph : Graph :=
  ((Graph.empty.add (referring "a" "x" "b:y")).add (referring "b" "y" "a:x")).connect
    ⟨0, "b", 1⟩ |>.connect ⟨1, "a", 0⟩

theorem edges_mutualGraph : mutualGraph.edges = [⟨1, "a", 0⟩, ⟨0, "b", 1⟩] := by
  decide +kernel

theorem package?_mutualGraph :
    mutualGraph.package? 0 = some (referring "a" "x" "b:y")
      ∧ mutualGraph.package? 1 = some (referring "b" "y" "a:x") := by
  decide +kernel

theorem refers_mutualGraph {name : String} {reference : Reference} :
    mutualGraph.Refers id name reference ↔
      id = 0 ∧ name = "x" ∧ reference = ⟨"b", some "y"⟩
        ∨ id = 1 ∧ name = "y" ∧ reference = ⟨"a", some "x"⟩ := by
  have toSecond : Reference.parse "b:y" = ⟨"b", some "y"⟩ := by decide +kernel
  have toFirst : Reference.parse "a:x" = ⟨"a", some "x"⟩ := by decide +kernel
  have areNodes : mutualGraph.nodes = [0, 1] := by decide +kernel
  constructor
  · intro refers
    have isNode : id ∈ mutualGraph.nodes := by
      obtain ⟨_, _, isPackage, _⟩ := refers
      exact Graph.mem_nodes_of_package? isPackage
    rw [areNodes] at isNode
    rcases List.mem_pair.mp isNode with rfl | rfl
    · rw [refers_referring package?_mutualGraph.1, toSecond] at refers
      exact Or.inl ⟨rfl, refers⟩
    · rw [refers_referring package?_mutualGraph.2, toFirst] at refers
      exact Or.inr ⟨rfl, refers⟩
  · rintro (⟨rfl, refers⟩ | ⟨rfl, refers⟩)
    · rwa [refers_referring package?_mutualGraph.1, toSecond]
    · rwa [refers_referring package?_mutualGraph.2, toFirst]

/-- If the component of the first package is asked for, both components are needed. -/
theorem needed_mutualGraph {name : String} :
    mutualGraph.Needed 0 { components := ["x"] } id name ↔
      id = 0 ∧ name = "x" ∨ id = 1 ∧ name = "y" := by
  have isChild : ∀ {source target dependency},
      mutualGraph.IsChild source dependency target ↔
        ⟨source, dependency, target⟩ ∈ mutualGraph.edges := by
    intro source target dependency
    apply Graph.isChild_iff_of_only
    grind [edges_mutualGraph]
  constructor
  · intro needed
    induction needed with
    | asked asks =>
        obtain ⟨_, _, isAsked⟩ := asks
        simpa [Wanted.AsksFor] using isAsked
    | internal _ refers isInternal _ _ =>
        rcases refers_mutualGraph.mp refers with ⟨_, _, rfl⟩ | ⟨_, _, rfl⟩
        · contradiction
        · contradiction
    | external _ refers _ leads means _ =>
        obtain ⟨_, _, isMeant⟩ := means
        rw [isChild, edges_mutualGraph] at leads
        rcases refers_mutualGraph.mp refers with ⟨rfl, _, rfl⟩ | ⟨rfl, _, rfl⟩
        · right
          simpa [Reference.Means] using And.intro leads isMeant
        · left
          simpa [Reference.Means] using And.intro leads isMeant
  · have needed : mutualGraph.Needed 0 { components := ["x"] } 0 "x" :=
      .asked ⟨_, package?_mutualGraph.1, Or.inl List.mem_cons_self⟩
    rintro (⟨rfl, rfl⟩ | ⟨rfl, rfl⟩)
    · exact needed
    · refine .external needed (refers_mutualGraph.mpr (Or.inl ⟨rfl, rfl, rfl⟩))
        (by decide) (isChild.mpr ?_) ⟨_, package?_mutualGraph.2, rfl⟩
      rw [edges_mutualGraph]
      exact List.mem_cons_of_mem _ List.mem_cons_self

/-- In a cycle of two packages, propagation selects the component that is asked for of the
first one and the component that it needs of the second, and uses both edges. -/
theorem propagate_least_mutualGraph :
    0 ∈ mutualGraph.nodes ∧ ∃ selection,
      (propagate mutualGraph 0 { components := ["x"] }).outcome = .ok selection
        ∧ selection.components 0 = ["x"] ∧ selection.components 1 = ["y"]
        ∧ ∀ id dependency, selection.uses id dependency = true ↔
            id = 0 ∧ dependency = "b" ∨ id = 1 ∧ dependency = "a" := by
  have isNode : 0 ∈ mutualGraph.nodes := by decide +kernel
  obtain ⟨succeeds, _, selects⟩ :=
    @propagate_least mutualGraph 0 { components := ["x"] } isNode
  obtain ⟨selection, isSelection⟩ := succeeds.mpr <| by
    intro id name needed
    rcases needed_mutualGraph.mp needed with ⟨rfl, rfl⟩ | ⟨rfl, rfl⟩
    · exact ⟨_, package?_mutualGraph.1, by decide⟩
    · exact ⟨_, package?_mutualGraph.2, by decide⟩
  obtain ⟨areNeeded, areUsed⟩ := selects selection isSelection
  have isOnly : ∀ id only, (∀ name, mutualGraph.Needed 0 { components := ["x"] } id name ↔
      name = only) → selection.components id = [only] := by
    intro id only isNeeded
    obtain ⟨distinct, mem_iff⟩ := areNeeded id
    apply List.perm_singleton.mp
    rw [List.perm_ext_iff_of_nodup distinct (List.nodup_singleton only)]
    intro name
    rw [mem_iff, isNeeded, List.mem_singleton]
  have isFirst : selection.components 0 = ["x"] :=
    isOnly 0 "x" fun name => by simp [needed_mutualGraph]
  have isSecond : selection.components 1 = ["y"] :=
    isOnly 1 "y" fun name => by simp [needed_mutualGraph]
  refine ⟨isNode, selection, isSelection, isFirst, isSecond, fun id dependency => ?_⟩
  rw [areUsed, edges_mutualGraph]
  simp only [refers_mutualGraph]
  constructor
  · rintro ⟨⟨child, isEdge⟩, _⟩
    simp only [List.mem_cons, Edge.mk.injEq, List.not_mem_nil] at isEdge
    tauto
  · rintro (⟨rfl, rfl⟩ | ⟨rfl, rfl⟩)
    · exact ⟨⟨1, by simp⟩, "x", by simp [isFirst], ⟨"b", some "y"⟩, by simp⟩
    · exact ⟨⟨0, by simp⟩, "y", by simp [isSecond], ⟨"a", some "x"⟩, by simp⟩

end Selection
end PackageFlags
