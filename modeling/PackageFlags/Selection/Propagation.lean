import PackageFlags.Remaining
import PackageFlags.Selection.Basic

/-!
# Propagating what is asked for

What is asked of one package is passed on along references. `additions` follows
those inside a package; it adds the names asked for in order, and puts what they
refer to behind them. What the added components ask of dependencies becomes a
list of demands, one for each dependency, and these are met depth first.

Every component is added once, also on cyclic graphs. What remains to be added
pays for the references that are followed from it, and this bounds the walk.
-/

namespace PackageFlags
namespace Selection

/-- The number of names that a component of a package refers to inside it. -/
def internalCost (package : Package) (name : String) : Nat :=
  match package.components.get? name with
  | some component => (Wanted.internalNames package component).length
  | none => 0

/-- The components that names add to those selected already, in order: the names
themselves and what they refer to inside the package. A name that the package
does not have is a failure. -/
def additions
    (package : Package)
    (already : List String) : List String -> Except Failure (List String)
  | [] => .ok []
  | name :: rest =>
      if name ∈ already then
        additions package already rest
      else
        match _found : package.components.get? name with
        | none => .error (.missingComponents package.name [name])
        | some component =>
            match additions package (already ++ [name])
                (rest ++ Wanted.internalNames package component) with
            | .error failure => .error failure
            | .ok added => .ok (name :: added)
termination_by
  queue =>
    remaining (internalCost package) package.components.names already
      + queue.length
decreasing_by
  · simp
  · rename_i notSelected
    have paid := remaining_add_cost_le
      (internalCost package)
      (List.subset_append_left already [name])
      (NameMap.mem_names_of_get? _found)
      notSelected
      (by simp)
    simp only [internalCost, _found] at paid
    simp only [List.length_append, List.length_cons]
    omega

/-- Names are new to a list when each is a component of the package that is
neither in the list nor among the names before it. -/
def Fresh (package : Package) : List String -> List String -> Prop
  | _, [] => True
  | already, name :: rest =>
      name ∈ package.components.names ∧ name ∉ already
        ∧ Fresh package (already ++ [name]) rest

/-- The components that are added are new. -/
theorem additions_fresh
    {package : Package}
    {already queue added : List String}
    (result : additions package already queue = .ok added) :
    Fresh package already added := by
  fun_induction additions package already queue generalizing added with
  | case1 => cases result; trivial
  | case2 already name rest isSelected restFresh => exact restFresh result
  | case3 => simp at result
  | case4 => simp at result
  | case5 already name rest notSelected component found more isMore moreFresh =>
      cases result
      exact ⟨NameMap.mem_names_of_get? found, notSelected, moreFresh isMore⟩

/-- What a node asks of one of its dependencies. -/
structure Demand where
  /-- The node that asks. -/
  node : NodeId
  /-- The name of the dependency. -/
  dependency : String
  /-- What is asked of it. -/
  wanted : Wanted
  deriving DecidableEq, Repr

/-- The references to dependencies that a component of a package makes. -/
def externalReferences (package : Package) (name : String) : List Reference :=
  match package.components.get? name with
  | some component =>
      component.requires.filter fun reference => !reference.isInternal
  | none => []

/-- What newly added components of a node ask of its dependencies. -/
def demandsOf
    (id : NodeId)
    (package : Package)
    (added : List String) : List Demand :=
  (Wanted.byDependency (added.flatMap (externalReferences package))).map
    fun (dependency, wanted) => { node := id, dependency, wanted }

/-- There are no more demands than references. -/
theorem length_demandsOf_le
    (id : NodeId)
    (package : Package)
    (added : List String) :
    (demandsOf id package added).length ≤
      (added.flatMap (externalReferences package)).length := by
  unfold demandsOf
  rw [List.length_map]
  exact Wanted.length_byDependency_le _

/-- Select what is asked of a node. The result has the demands that follow. -/
def visit
    (graph : Graph)
    (selection : Selection)
    (id : NodeId)
    (wanted : Wanted) : Except Failure (Selection × List Demand) :=
  match graph.package? id with
  | none => .error (.unknownNode id)
  | some package =>
      match additions package (selection.components id)
          (wanted.names package) with
      | .error failure => .error failure
      | .ok added =>
          .ok (selection.select id added, demandsOf id package added)

/-- The components of all packages in a graph, with their nodes. -/
def definedIn (graph : Graph) : List (NodeId × String) :=
  graph.packages.flatMap fun (id, package) =>
    package.components.names.map fun name => (id, name)

theorem mem_definedIn
    {graph : Graph}
    {id : NodeId}
    {package : Package}
    {name : String}
    (isPackage : graph.package? id = some package)
    (isComponent : name ∈ package.components.names) :
    (id, name) ∈ definedIn graph := by
  refine List.mem_flatMap.mpr
    ⟨(id, package), Graph.mem_packages_of_package? isPackage, ?_⟩
  simpa using isComponent

/-- The number of references to dependencies that a component of a graph
makes. -/
def externalCost (graph : Graph) (component : NodeId × String) : Nat :=
  match graph.package? component.1 with
  | some package => (externalReferences package component.2).length
  | none => 0

/-- What remains to be selected in a graph, with the references that it
makes. -/
def unselected (graph : Graph) (selection : Selection) : Nat :=
  remaining (externalCost graph) (definedIn graph) selection.selected

/-- Selecting components that are new pays for their references, and for one
more step if there are any. -/
theorem unselected_select
    {graph : Graph}
    {id : NodeId}
    {package : Package}
    (isPackage : graph.package? id = some package)
    (added : List String)
    (selection : Selection)
    (fresh : Fresh package (selection.components id) added) :
    unselected graph (selection.select id added)
        + (added.flatMap (externalReferences package)).length
        + added.length ≤ unselected graph selection := by
  induction added generalizing selection with
  | nil => simp [select, unselected]
  | cons name rest restPaid =>
      obtain ⟨isComponent, isNew, restFresh⟩ := fresh
      have restLe := restPaid (selection.select id [name]) (by simpa)
      have firstPaid := remaining_add_cost_le
        (externalCost graph)
        (List.subset_append_left selection.selected [(id, name)])
        (mem_definedIn isPackage isComponent)
        (fun old => isNew (mem_components.mpr old))
        (by simp)
      have split : (selection.select id [name]).select id rest =
          selection.select id (name :: rest) := by
        simp [select]
      rw [split] at restLe
      simp only [externalCost, isPackage] at firstPaid
      simp only [unselected, selected_select, List.map_cons, List.map_nil,
        List.flatMap_cons, List.length_append, List.length_cons] at restLe firstPaid ⊢
      omega

/-- The demands that a visit gives rise to are paid for by what it selects. -/
theorem unselected_visit
    {graph : Graph}
    {selection next : Selection}
    {id : NodeId}
    {wanted : Wanted}
    {demands : List Demand}
    (result : visit graph selection id wanted = .ok (next, demands)) :
    unselected graph next + demands.length ≤ unselected graph selection := by
  unfold visit at result
  split at result
  · simp at result
  · rename_i package isPackage
    split at result
    · simp at result
    · rename_i added isAdded
      cases result
      have paid := unselected_select isPackage added selection
        (additions_fresh isAdded)
      have fewDemands := length_demandsOf_le id package added
      omega

@[simp] theorem unselected_use
    (graph : Graph)
    (selection : Selection)
    (id : NodeId)
    (dependency : String) :
    unselected graph (selection.use id dependency) =
      unselected graph selection := by
  simp [unselected]

/-- The warning that a node asks something of a dependency that its package does
not declare. -/
def warningFor (graph : Graph) (demand : Demand) : Warning where
  package :=
    match graph.package? demand.node with
    | some package => package.name
    | none => ""
  dependency := demand.dependency

/-- Warnings in order, with what a walk over the graph came to. -/
structure Propagation where
  /-- The warnings. -/
  warnings : List Warning
  /-- The selection, or why there is none. -/
  outcome : Except Failure Selection

/-- Meet demands in order; those that a visit gives rise to come first. -/
def meet
    (graph : Graph)
    (warnings : List Warning)
    (selection : Selection) : List Demand -> Propagation
  | [] => { warnings, outcome := .ok selection }
  | demand :: rest =>
      match graph.child? demand.node demand.dependency with
      | none =>
          meet graph (warnings ++ [warningFor graph demand]) selection rest
      | some child =>
          match _result : visit graph
              (selection.use demand.node demand.dependency)
              child demand.wanted with
          | .error failure => { warnings, outcome := .error failure }
          | .ok (next, demands) => meet graph warnings next (demands ++ rest)
termination_by
  demands => unselected graph selection + demands.length
decreasing_by
  · simp
  · have paid := unselected_visit _result
    rw [unselected_use] at paid
    simp only [List.length_append, List.length_cons]
    omega

/-- The components of all packages that are needed when these are asked of one
node. -/
def propagate
    (graph : Graph)
    (root : NodeId)
    (wanted : Wanted) : Propagation :=
  match visit graph empty root wanted with
  | .error failure => { warnings := [], outcome := .error failure }
  | .ok (selection, demands) => meet graph [] selection demands

end Selection
end PackageFlags
