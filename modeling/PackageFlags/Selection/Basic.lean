import PackageFlags.Failure
import PackageFlags.Graph.Basic

/-!
# Selecting components

Starting from the components that are asked of one package, the selection grows
along references: one inside the same package selects a component of it, one to
a dependency selects components there. Selected components and used dependencies
are kept as pairs with their node, in the order in which they were added.
-/

namespace PackageFlags

/-- The part of a package graph that contributes flags. -/
structure Selection where
  /-- The selected components with their nodes, in the order of selection. -/
  selected : List (NodeId × String) := []
  /-- The used dependencies with their nodes, in the order of first use. -/
  used : List (NodeId × String) := []
  deriving DecidableEq, Repr

namespace Selection

/-- The selection of nothing. -/
def empty : Selection := {}

/-- The components selected on a node, in the order of selection. -/
def components (selection : Selection) (id : NodeId) : List String :=
  selection.selected.filterMap fun (node, name) =>
    if node = id then some name else none

/-- Whether a node uses a dependency. -/
def uses (selection : Selection) (id : NodeId) (dependency : String) : Bool :=
  (id, dependency) ∈ selection.used

/-- The nodes of the dependencies that a node uses, in the order in which they
are declared. -/
def usedChildren
    (selection : Selection)
    (graph : Graph)
    (id : NodeId) : List NodeId :=
  (graph.children id).filterMap fun (dependency, child) =>
    if selection.uses id dependency then some child else none

theorem length_usedChildren_le
    (selection : Selection)
    (graph : Graph)
    (id : NodeId) :
    (selection.usedChildren graph id).length ≤ (graph.children id).length :=
  List.length_filterMap_le _ _

/-- Add components of a node. -/
def select
    (selection : Selection)
    (id : NodeId)
    (names : List String) : Selection :=
  { selection with
    selected := selection.selected ++ names.map fun name => (id, name) }

/-- Note that a node uses a dependency. -/
def use
    (selection : Selection)
    (id : NodeId)
    (dependency : String) : Selection :=
  if selection.uses id dependency then
    selection
  else
    { selection with used := selection.used ++ [(id, dependency)] }

theorem mem_components
    {selection : Selection}
    {id : NodeId}
    {name : String} :
    name ∈ selection.components id ↔ (id, name) ∈ selection.selected := by
  simp [components, List.mem_filterMap, Prod.exists]

@[simp] theorem components_select
    (selection : Selection)
    (id : NodeId)
    (names : List String) :
    (selection.select id names).components id =
      selection.components id ++ names := by
  unfold components select
  rw [List.filterMap_append]
  congr 1
  induction names with
  | nil => rfl
  | cons first rest restSame =>
      simp only [List.map_cons, List.filterMap_cons, if_true, restSame]

@[simp] theorem selected_select
    (selection : Selection)
    (id : NodeId)
    (names : List String) :
    (selection.select id names).selected =
      selection.selected ++ names.map fun name => (id, name) := rfl

@[simp] theorem selected_use
    (selection : Selection)
    (id : NodeId)
    (dependency : String) :
    (selection.use id dependency).selected = selection.selected := by
  unfold use
  split <;> rfl

end Selection

/-- A reference to a dependency that its package does not declare. -/
structure Warning where
  /-- The name of the package. -/
  package : String
  /-- The name that is not declared. -/
  dependency : String
  deriving DecidableEq, Repr

namespace Warning

/-- The text of a warning. -/
def message (warning : Warning) : String :=
  warning.package ++ ": a component requires `" ++ warning.dependency ++
    "`, which is not a declared dependency; ignoring"

end Warning

/-- What is asked of a package: its default components or not, and components
by name. -/
structure Wanted where
  /-- Whether the default components are asked for. -/
  defaults : Bool := false
  /-- The components asked for by name. -/
  components : List String := []
  deriving DecidableEq, Repr

namespace Wanted

/-- The components of a package that are asked for, the default ones first. -/
def names (wanted : Wanted) (package : Package) : List String :=
  (if wanted.defaults then package.defaults else []) ++ wanted.components

/-- Ask for what a reference means as well. -/
def add (wanted : Wanted) (reference : Reference) : Wanted :=
  match reference.component with
  | some component =>
      { wanted with components := wanted.components ++ [component] }
  | none => { wanted with defaults := true }

/-- What references inside a package ask of it, in the order of the
references. -/
def internalNames (package : Package) (component : Component) : List String :=
  (component.requires.filter Reference.isInternal).flatMap fun reference =>
    match reference.component with
    | some name => [name]
    | none => package.defaults

/-- Ask of a dependency what a reference means, behind the dependencies that
something is asked of already. -/
def addTo
    (reference : Reference) : List (String × Wanted) -> List (String × Wanted)
  | [] => [(reference.package, add {} reference)]
  | (dependency, wanted) :: rest =>
      if dependency = reference.package then
        (dependency, wanted.add reference) :: rest
      else
        (dependency, wanted) :: addTo reference rest

/-- What references ask of each dependency, in the order in which the
dependencies first occur. -/
def byDependency (references : List Reference) : List (String × Wanted) :=
  references.foldl (fun grouped reference => addTo reference grouped) []

theorem length_addTo_le
    (reference : Reference)
    (grouped : List (String × Wanted)) :
    (addTo reference grouped).length ≤ grouped.length + 1 := by
  induction grouped with
  | nil => exact Nat.le_refl _
  | cons first rest restLe =>
      unfold addTo
      split
      · simp
      · simpa using restLe

/-- There are no more dependencies than references. -/
theorem length_byDependency_le (references : List Reference) :
    (byDependency references).length ≤ references.length := by
  have grown : forall grouped : List (String × Wanted),
      (references.foldl
        (fun grouped reference => addTo reference grouped) grouped).length
        ≤ grouped.length + references.length := by
    induction references with
    | nil => intro grouped; exact Nat.le_refl _
    | cons first rest restGrown =>
        intro grouped
        have firstLe := length_addTo_le first grouped
        have restLe := restGrown (addTo first grouped)
        simp only [List.foldl_cons, List.length_cons]
        omega
  have whole := grown []
  rw [List.length_nil, Nat.zero_add] at whole
  exact whole

end Wanted
end PackageFlags
