import PackageFlags.Proofs.Graph.Children
import PackageFlags.Selection.Basic

/-!
# Needed components

What a reference means depends on the package that it leads to: the component that
it names, or else all default components there. The needed components of a graph
are the least set with those that are asked of one node, closed under references.
-/

namespace PackageFlags

/-- A package declares a component as one of its default ones. -/
def Package.IsDefault (package : Package) (name : String) : Prop :=
  ∃ names ∈ package.defaultComponents, name ∈ names

theorem Package.mem_defaults {package : Package} {name : String} :
    name ∈ package.defaults ↔ package.IsDefault name := by
  unfold Package.defaults Package.IsDefault
  cases package.defaultComponents with
  | none => simp
  | some names => simp

/-- A reference to a package means the component that it names, or else each default
component. -/
def Reference.Means
    (reference : Reference)
    (package : Package)
    (name : String) : Prop :=
  match reference.component with
  | some component => name = component
  | none => package.IsDefault name

/-- A reference without a package is one inside the package that makes it. -/
theorem Reference.isInternal_iff {reference : Reference} :
    reference.isInternal = true ↔ reference.package = "" := by
  simp [Reference.isInternal]

theorem Reference.isInternal_eq_false_iff {reference : Reference} :
    reference.isInternal = false ↔ reference.package ≠ "" := by
  simp [Reference.isInternal]

namespace Wanted

/-- A component of a package is asked for by its name, or as a default one if these are
asked for. -/
def AsksFor
    (wanted : Wanted)
    (package : Package)
    (name : String) : Prop :=
  name ∈ wanted.components ∨ wanted.defaults = true ∧ package.IsDefault name

variable {wanted : Wanted} {package : Package} {name : String}

theorem mem_names : name ∈ wanted.names package ↔ wanted.AsksFor package name := by
  unfold Wanted.names AsksFor
  rw [List.mem_append, or_comm, ← Package.mem_defaults]
  by_cases hasDefaults : wanted.defaults = true
  · simp [hasDefaults]
  · simp [hasDefaults]

/-- What is asked for together with a reference. -/
theorem asksFor_add {reference : Reference} :
    (wanted.add reference).AsksFor package name ↔
      wanted.AsksFor package name ∨ reference.Means package name := by
  unfold Wanted.add Reference.Means
  cases reference.component with
  | some component => simp [AsksFor, or_assoc, or_comm]
  | none =>
      by_cases hasDefaults : wanted.defaults = true
      · simp [AsksFor, hasDefaults]
      · simp [AsksFor, hasDefaults]

/-- What references inside a package ask of it is what they mean there. -/
theorem mem_internalNames {component : Component} :
    name ∈ internalNames package component ↔
      ∃ reference ∈ component.requires, reference.package = ""
        ∧ reference.Means package name := by
  simp only [internalNames, List.mem_flatMap, List.mem_filter, and_assoc,
    Reference.isInternal_iff]
  refine exists_congr fun reference => and_congr_right fun _ => and_congr_right fun _ => ?_
  unfold Reference.Means
  cases reference.component with
  | some component => exact List.mem_singleton
  | none => exact Package.mem_defaults

end Wanted

namespace Graph

/-- The package of a node defines a component. -/
def Defines (graph : Graph) (id : NodeId) (name : String) : Prop :=
  ∃ package, graph.package? id = some package
    ∧ name ∈ package.components.names

/-- A component of a node makes a reference. -/
def Refers
    (graph : Graph)
    (id : NodeId)
    (name : String)
    (reference : Reference) : Prop :=
  ∃ package component, graph.package? id = some package
    ∧ package.components.get? name = some component
    ∧ reference ∈ component.requires

/-- A reference to a node means one of its components. -/
def Means
    (graph : Graph)
    (id : NodeId)
    (reference : Reference)
    (name : String) : Prop :=
  ∃ package, graph.package? id = some package ∧ reference.Means package name

/-- A component of a node is asked for. -/
def Asks
    (graph : Graph)
    (id : NodeId)
    (wanted : Wanted)
    (name : String) : Prop :=
  ∃ package, graph.package? id = some package ∧ wanted.AsksFor package name

/-- The components that are needed when some are asked of one node. -/
inductive Needed
    (graph : Graph)
    (root : NodeId)
    (wanted : Wanted) : NodeId -> String -> Prop
  /-- What is asked of the node. -/
  | asked
      {name : String}
      (asks : graph.Asks root wanted name) :
      Needed graph root wanted root name
  /-- What a needed component refers to in its own package. -/
  | internal
      {id : NodeId}
      {name meant : String}
      {reference : Reference}
      (needed : Needed graph root wanted id name)
      (refers : graph.Refers id name reference)
      (isInternal : reference.package = "")
      (means : graph.Means id reference meant) :
      Needed graph root wanted id meant
  /-- What a needed component refers to in a dependency of its package. -/
  | external
      {id child : NodeId}
      {name meant : String}
      {reference : Reference}
      (needed : Needed graph root wanted id name)
      (refers : graph.Refers id name reference)
      (isExternal : reference.package ≠ "")
      (isChild : graph.IsChild id reference.package child)
      (means : graph.Means child reference meant) :
      Needed graph root wanted child meant

/-- A needed component of one node refers to a dependency that is another node. -/
def LeadsTo
    (graph : Graph)
    (root : NodeId)
    (wanted : Wanted)
    (source target : NodeId) : Prop :=
  ∃ name reference, graph.Needed root wanted source name
    ∧ graph.Refers source name reference ∧ reference.package ≠ ""
    ∧ ⟨source, reference.package, target⟩ ∈ graph.edges

end Graph
end PackageFlags
