import Mathlib.Tactic.Tauto
import PackageFlags.Proofs.Selection.Needed
import PackageFlags.Selection.Propagation

/-!
# What a visit adds and demands

The components that a visit adds are those asked for and what they refer to inside
the package, as far as they were not selected already. Its demands ask of each
dependency what the added components refer to there.
-/

namespace PackageFlags
namespace Selection

variable {package : Package} {already queue added : List String}

/-- Names are closed inside a package when they contain what the components that
they name refer to there. -/
def ClosedInside (package : Package) (holds : String → Prop) : Prop :=
  ∀ name component other, holds name →
    package.components.get? name = some component →
    other ∈ Wanted.internalNames package component → holds other

/-- All names asked for are selected, or were already. -/
theorem subset_additions
    (result : additions package already queue = .ok added) :
    queue ⊆ already ++ added := by
  fun_induction additions package already queue generalizing added with
  | case1 => exact List.nil_subset _
  | case2 already name rest isSelected restSubset =>
      exact List.cons_subset.mpr
        ⟨List.mem_append_left added isSelected, restSubset result⟩
  | case3 => simp at result
  | case4 => simp at result
  | case5 already name rest notSelected component found more isMore moreSubset =>
      cases result
      have subset := moreSubset isMore
      rw [List.append_assoc] at subset
      exact List.cons_subset.mpr
        ⟨List.mem_append_right already List.mem_cons_self,
          fun other member => subset (List.mem_append_left _ member)⟩

/-- What added components refer to inside the package is selected, or was
already. -/
theorem internalNames_subset_additions
    (result : additions package already queue = .ok added)
    {name : String}
    {component : Component}
    (isAdded : name ∈ added)
    (isComponent : package.components.get? name = some component) :
    Wanted.internalNames package component ⊆ already ++ added := by
  fun_induction additions package already queue generalizing added with
  | case1 =>
      cases result
      simp at isAdded
  | case2 already first rest isSelected restSubset =>
      exact restSubset result isAdded
  | case3 => simp at result
  | case4 => simp at result
  | case5 already first rest notSelected own found more isMore moreSubset =>
      cases result
      rcases List.mem_cons.mp isAdded with isFirst | isLater
      · subst isFirst
        rw [found, Option.some.injEq] at isComponent
        have subset := subset_additions isMore
        rw [List.append_assoc, isComponent] at subset
        exact fun other member => subset (List.mem_append_right rest member)
      · have subset := moreSubset isMore isLater
        rw [List.append_assoc] at subset
        exact subset

/-- Whatever holds of the names asked for and is closed inside the package holds
of all components that are added. -/
theorem additions_induction
    {holds : String → Prop}
    (closed : ClosedInside package holds)
    (result : additions package already queue = .ok added)
    (holdsAsked : ∀ name ∈ queue, holds name) :
    ∀ name ∈ added, holds name := by
  fun_induction additions package already queue generalizing added with
  | case1 =>
      cases result
      simp
  | case2 already first rest isSelected restHolds =>
      exact restHolds result fun name later =>
        holdsAsked name (List.mem_cons_of_mem first later)
  | case3 => simp at result
  | case4 => simp at result
  | case5 already first rest notSelected component found more isMore moreHolds =>
      cases result
      have holdsFirst := holdsAsked first List.mem_cons_self
      have holdsMore : ∀ name ∈ rest ++ Wanted.internalNames package component,
          holds name := by
        intro name member
        rcases List.mem_append.mp member with isLater | isReferred
        · exact holdsAsked name (List.mem_cons_of_mem first isLater)
        · exact closed first component name holdsFirst found isReferred
      exact List.forall_mem_cons.mpr ⟨holdsFirst, moreHolds isMore holdsMore⟩

/-- A failure names a component that the package does not define, of which
everything holds that holds of the names asked for and is closed inside the
package. -/
theorem additions_error
    {holds : String → Prop}
    (closed : ClosedInside package holds)
    {failure : Failure}
    (result : additions package already queue = .error failure)
    (holdsAsked : ∀ name ∈ queue, holds name) :
    ∃ name, holds name ∧ name ∉ package.components.names
      ∧ failure = .missingComponents package.name [name] := by
  fun_induction additions package already queue with
  | case1 => simp at result
  | case2 already first rest isSelected restError =>
      exact restError result fun name later =>
        holdsAsked name (List.mem_cons_of_mem first later)
  | case3 already first rest notSelected missing =>
      cases result
      refine ⟨first, holdsAsked first List.mem_cons_self, ?_, rfl⟩
      intro isName
      obtain ⟨component, found⟩ := NameMap.mem_names_iff.mp isName
      rw [missing] at found
      contradiction
  | case4 already first rest notSelected component found cause isMore moreError =>
      cases result
      refine moreError isMore ?_
      intro name member
      rcases List.mem_append.mp member with isLater | isReferred
      · exact holdsAsked name (List.mem_cons_of_mem first isLater)
      · exact closed first component name
          (holdsAsked first List.mem_cons_self) found isReferred
  | case5 => simp at result

/-- New names are components of the package, none occurs twice, and none was
there already. -/
theorem Fresh.distinct (fresh : Fresh package already added) :
    added ⊆ package.components.names ∧ added.Nodup
      ∧ ∀ name ∈ added, name ∉ already := by
  induction added generalizing already with
  | nil => simp
  | cons first rest restDistinct =>
      obtain ⟨isName, isNew, restFresh⟩ := fresh
      obtain ⟨areNames, restNodup, areNew⟩ := restDistinct restFresh
      refine ⟨List.cons_subset.mpr ⟨isName, areNames⟩,
        List.nodup_cons.mpr ⟨?_, restNodup⟩, ?_⟩
      · intro again
        exact areNew first again (by simp)
      · intro name member
        rcases List.mem_cons.mp member with isFirst | isLater
        · exact isFirst ▸ isNew
        · exact fun old => areNew name isLater (List.mem_append_left _ old)

end Selection

namespace Wanted

/-- What is asked of a dependency when a reference is added: what was asked of it
before, and what the reference means there. -/
theorem asked_addTo
    {reference : Reference}
    {grouped : List (String × Wanted)}
    {dependency : String}
    {package : Package}
    {name : String} :
    (∃ wanted, (dependency, wanted) ∈ addTo reference grouped
        ∧ wanted.AsksFor package name) ↔
      (∃ wanted, (dependency, wanted) ∈ grouped ∧ wanted.AsksFor package name)
        ∨ reference.package = dependency ∧ reference.Means package name := by
  induction grouped with
  | nil =>
      have nothing : ¬ AsksFor {} package name := by simp [AsksFor]
      simp only [addTo, List.mem_singleton, Prod.mk.injEq, List.not_mem_nil,
        false_and, exists_false, false_or]
      constructor
      · rintro ⟨wanted, ⟨rfl, rfl⟩, isAsked⟩
        exact ⟨rfl, (asksFor_add.mp isAsked).resolve_left nothing⟩
      · rintro ⟨rfl, isMeant⟩
        exact ⟨_, ⟨rfl, rfl⟩, asksFor_add.mpr (Or.inr isMeant)⟩
  | cons first rest restAsked =>
      obtain ⟨other, before⟩ := first
      unfold addTo
      split
      · rename_i same
        simp only [List.mem_cons, Prod.mk.injEq, or_and_right, exists_or,
          and_assoc, exists_and_left, exists_eq_left, asksFor_add, ← same,
          eq_comm (a := other), and_or_left]
        exact or_right_comm
      · simp only [List.mem_cons, or_and_right, exists_or, restAsked, or_assoc]

/-- The dependencies that something is asked of when a reference is added. -/
theorem dependencies_addTo
    {reference : Reference}
    {grouped : List (String × Wanted)}
    {dependency : String} :
    dependency ∈ (addTo reference grouped).map Prod.fst ↔
      dependency ∈ grouped.map Prod.fst ∨ reference.package = dependency := by
  induction grouped with
  | nil => simp [addTo, eq_comm]
  | cons first rest restSame =>
      unfold addTo
      split
      · rename_i same
        simp only [List.map_cons, List.mem_cons, ← same]
        tauto
      · rw [List.map_cons, List.mem_cons, restSame, List.map_cons, List.mem_cons,
          or_assoc]

/-- What references ask of a dependency is what those to it mean there. -/
theorem asked_byDependency
    {references : List Reference}
    {dependency : String}
    {package : Package}
    {name : String} :
    (∃ wanted, (dependency, wanted) ∈ byDependency references
        ∧ wanted.AsksFor package name) ↔
      ∃ reference ∈ references, reference.package = dependency
        ∧ reference.Means package name := by
  have grown : ∀ grouped : List (String × Wanted),
      (∃ wanted, (dependency, wanted) ∈ references.foldl
          (fun grouped reference => addTo reference grouped) grouped
            ∧ wanted.AsksFor package name) ↔
        (∃ wanted, (dependency, wanted) ∈ grouped
            ∧ wanted.AsksFor package name)
          ∨ ∃ reference ∈ references, reference.package = dependency
              ∧ reference.Means package name := by
    induction references with
    | nil => simp
    | cons first rest restGrown =>
        intro grouped
        rw [List.foldl_cons, restGrown, asked_addTo, or_assoc]
        simp only [List.mem_cons, or_and_right, exists_or, exists_eq_left]
  unfold byDependency
  simpa using grown []

/-- References ask something of the dependencies that they lead to. -/
theorem dependencies_byDependency
    {references : List Reference}
    {dependency : String} :
    dependency ∈ (byDependency references).map Prod.fst ↔
      ∃ reference ∈ references, reference.package = dependency := by
  have grown : ∀ grouped : List (String × Wanted),
      dependency ∈ (references.foldl
          (fun grouped reference => addTo reference grouped) grouped).map Prod.fst ↔
        dependency ∈ grouped.map Prod.fst
          ∨ ∃ reference ∈ references, reference.package = dependency := by
    induction references with
    | nil => simp
    | cons first rest restGrown =>
        intro grouped
        rw [List.foldl_cons, restGrown, dependencies_addTo, or_assoc]
        simp only [List.mem_cons, or_and_right, exists_or, exists_eq_left]
  unfold byDependency
  simpa using grown []

end Wanted

namespace Selection

/-- The references of a component to dependencies. -/
theorem mem_externalReferences
    {graph : Graph}
    {id : NodeId}
    {package : Package}
    (isPackage : graph.package? id = some package)
    {name : String}
    {reference : Reference} :
    reference ∈ externalReferences package name ↔
      graph.Refers id name reference ∧ reference.package ≠ "" := by
  unfold externalReferences Graph.Refers
  cases found : package.components.get? name with
  | none => simp [isPackage, found]
  | some component => simp [isPackage, found, Reference.isInternal_eq_false_iff]

section Demands

variable {graph : Graph} {id : NodeId} {package : Package}
variable {added : List String}

theorem node_of_mem_demandsOf
    {demand : Demand}
    (isDemand : demand ∈ demandsOf id package added) :
    demand.node = id := by
  obtain ⟨_, _, rfl⟩ := List.mem_map.mp isDemand
  rfl

/-- Demands ask of a dependency what the added components refer to there. -/
theorem asked_demandsOf
    (isPackage : graph.package? id = some package)
    {dependency : String}
    {other : Package}
    {name : String} :
    (∃ demand ∈ demandsOf id package added, demand.dependency = dependency
        ∧ demand.wanted.AsksFor other name) ↔
      ∃ component ∈ added, ∃ reference, graph.Refers id component reference
        ∧ reference.package ≠ "" ∧ reference.package = dependency
        ∧ reference.Means other name := by
  have grouped : (∃ demand ∈ demandsOf id package added,
      demand.dependency = dependency ∧ demand.wanted.AsksFor other name) ↔
      ∃ wanted, (dependency, wanted) ∈ Wanted.byDependency
        (added.flatMap (externalReferences package))
          ∧ wanted.AsksFor other name := by
    constructor
    · rintro ⟨_, isDemand, rfl, isAsked⟩
      obtain ⟨entry, isGrouped, rfl⟩ := List.mem_map.mp isDemand
      exact ⟨entry.2, isGrouped, isAsked⟩
    · rintro ⟨wanted, isGrouped, isAsked⟩
      exact ⟨_, List.mem_map_of_mem isGrouped, rfl, isAsked⟩
  rw [grouped, Wanted.asked_byDependency]
  simp only [List.mem_flatMap, mem_externalReferences isPackage]
  constructor
  · rintro ⟨reference, ⟨component, isAdded, refers, isExternal⟩, isMeant⟩
    exact ⟨component, isAdded, reference, refers, isExternal, isMeant⟩
  · rintro ⟨component, isAdded, reference, refers, isExternal, isMeant⟩
    exact ⟨reference, ⟨component, isAdded, refers, isExternal⟩, isMeant⟩

/-- Demands are made of the dependencies that the added components refer to. -/
theorem dependencies_demandsOf
    (isPackage : graph.package? id = some package)
    {dependency : String} :
    (∃ demand ∈ demandsOf id package added, demand.dependency = dependency) ↔
      ∃ component ∈ added, ∃ reference, graph.Refers id component reference
        ∧ reference.package ≠ "" ∧ reference.package = dependency := by
  have grouped : (∃ demand ∈ demandsOf id package added,
      demand.dependency = dependency) ↔
      dependency ∈ (Wanted.byDependency
        (added.flatMap (externalReferences package))).map Prod.fst := by
    constructor
    · rintro ⟨_, isDemand, rfl⟩
      obtain ⟨entry, isGrouped, rfl⟩ := List.mem_map.mp isDemand
      exact List.mem_map_of_mem isGrouped
    · intro isGrouped
      obtain ⟨entry, isEntry, rfl⟩ := List.mem_map.mp isGrouped
      exact ⟨_, List.mem_map_of_mem isEntry, rfl⟩
  rw [grouped, Wanted.dependencies_byDependency]
  simp only [List.mem_flatMap, mem_externalReferences isPackage]
  constructor
  · rintro ⟨reference, ⟨component, isAdded, refers, isExternal⟩, isMeant⟩
    exact ⟨component, isAdded, reference, refers, isExternal, isMeant⟩
  · rintro ⟨component, isAdded, reference, refers, isExternal, isMeant⟩
    exact ⟨reference, ⟨component, isAdded, refers, isExternal⟩, isMeant⟩

end Demands
end Selection
end PackageFlags
