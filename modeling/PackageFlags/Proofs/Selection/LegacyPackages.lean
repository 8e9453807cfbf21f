import PackageFlags.Proofs.Description.MinimumVersions
import PackageFlags.Proofs.Description.RequiresGrammar
import PackageFlags.Proofs.Flags.LegacyAnswers
import PackageFlags.Proofs.Registry.Sessions
import PackageFlags.Proofs.Selection.Reports

/-!
# Legacy packages among others

The only component of a legacy package refers to the packages that it requires, and to no
others. So it makes use of every dependency that its node has, no warning is of a
dependency that the node lacks, and nothing that it refers to can be missing from its own
package.
-/

namespace PackageFlags

/-! ## Packages of one component -/

/-- A package has one component, an interface, which is used by default, and the
references of the component are to the default components of what the package
requires. -/
structure Package.RefersToRequired
    (package : Package)
    (component : Component) : Prop where
  only : package.components.entries = [(package.name, component)]
  isInterface : component.kind = .interface
  isDefault : package.defaultComponents = some [package.name]
  mem_required_iff : ∀ dependency,
    dependency ∈ component.requires.map Reference.package ↔
      dependency ∈ package.requires.names
  isExternal : ∀ reference ∈ component.requires, reference.isInternal = false
  meansDefaults : ∀ reference ∈ component.requires, reference.component = none

namespace Description

namespace RequiredPackage

variable {entries : List RequiredPackage}

/-- The entries of a list in writing have words for names. -/
theorem Writes.isWord
    {text : List Char}
    (isWritten : Writes entries text) :
    ∀ entry ∈ entries, RequiresToken.IsWord entry.name.toList := by
  induction isWritten with
  | nil => simp
  | cons _ isEntry _ _ restWords =>
      refine List.forall_mem_cons.mpr ⟨?_, restWords⟩
      cases isEntry with
      | name isName => exact isName
      | constrained isName => exact isName

/-- The entries that are read of a text have names that are not empty. -/
theorem name_ne_empty_of_parseList
    {text : String}
    (areEntries : parseList text = .ok entries) :
    ∀ entry ∈ entries, entry.name ≠ "" := by
  have isWritten := (ofTokens_eq_ok_iff.mp areEntries).writes
    (RequiresToken.tokens_iff.mpr rfl)
  intro entry isEntry isEmpty
  apply (isWritten.isWord entry isEntry).1
  rw [isEmpty]
  rfl

end RequiredPackage

namespace Legacy

/-- The only component of a package that variables and properties describe refers to what
the package requires. -/
theorem refersToRequired_of_ofProperties
    {known : Properties}
    {source : Path}
    {package : Package}
    (isRead : ofProperties known source = .ok package) :
    ∃ component, package.RefersToRequired component := by
  obtain ⟨_, entries, areEntries, _, _, areComponents, areRequired, _⟩ :=
    ofProperties_eq_ok isRead
  exact ⟨component known package.name entries, {
    only := by
      rw [areComponents]
      rfl
    isInterface := rfl
    isDefault := defaultComponents_of_ofProperties isRead
    mem_required_iff := by
      intro dependency
      rw [areRequired, mem_names_requirements]
      simp [component, references]
    isExternal := by
      intro reference isReference
      obtain ⟨entry, isEntry, rfl⟩ := List.mem_map.mp isReference
      simpa [Reference.isInternal] using
        RequiredPackage.name_ne_empty_of_parseList areEntries entry isEntry
    meansDefaults := by
      intro reference isReference
      obtain ⟨entry, _, rfl⟩ := List.mem_map.mp isReference
      rfl }⟩

end Legacy
end Description

/-! ## Their nodes -/

namespace Package.RefersToRequired

open Selection (Undeclared)

variable {package : Package} {component : Component}
variable {graph : Graph} {id root : NodeId} {wanted : Wanted}
variable {name : String} {reference : Reference}

/-- The only component is the default one. -/
theorem get?_eq_some_iff
    (refersToRequired : package.RefersToRequired component)
    {found : Component} :
    package.components.get? name = some found ↔
      name = package.name ∧ found = component := by
  rw [NameMap.get?_eq_some_iff, refersToRequired.only, List.mem_singleton,
    Prod.mk.injEq]

/-- What is not defined is not used by default. -/
theorem not_mem_defaults
    (refersToRequired : package.RefersToRequired component)
    (isUndefined : name ∉ package.components.names) :
    name ∉ package.defaults := by
  rw [NameMap.names, refersToRequired.only] at isUndefined
  rw [Package.defaults, refersToRequired.isDefault]
  exact isUndefined

/-- The references of a node are those of the only component. -/
theorem mem_requires_of_refers
    (refersToRequired : package.RefersToRequired component)
    (isPackage : graph.package? id = some package)
    (refers : graph.Refers id name reference) :
    reference ∈ component.requires := by
  obtain ⟨owner, found, isOwner, isFound, isReference⟩ := refers
  cases isPackage.symm.trans isOwner
  rw [(refersToRequired.get?_eq_some_iff.mp isFound).2] at isReference
  exact isReference

/-- The dependencies of a node are found under the names that its package requires. -/
theorem child?_eq_some
    (areRequired : (graph.children id).map Prod.fst = package.requires.names)
    {child : NodeId}
    {dependency : String}
    (isChild : (dependency, child) ∈ graph.children id) :
    graph.child? id dependency = some child := by
  have increasing := package.requires.increasing
  rw [← List.pairwise_map, ← NameMap.names, ← areRequired,
    List.pairwise_map] at increasing
  exact NameMap.lookup_of_mem_entries increasing isChild

/-- Everything that a node refers to is a dependency that it has. -/
theorem exists_child
    (refersToRequired : package.RefersToRequired component)
    (isPackage : graph.package? id = some package)
    (areRequired : (graph.children id).map Prod.fst = package.requires.names)
    (refers : graph.Refers id name reference) :
    ∃ child, graph.child? id reference.package = some child := by
  have isReference := refersToRequired.mem_requires_of_refers isPackage refers
  have isRequired := (refersToRequired.mem_required_iff _).mp
    (List.mem_map_of_mem isReference)
  rw [← areRequired] at isRequired
  obtain ⟨⟨_, child⟩, isChild, rfl⟩ := List.mem_map.mp isRequired
  exact ⟨child, child?_eq_some areRequired isChild⟩

/-- When its default component is selected, a node uses each of its dependencies, with
the default components there. -/
theorem uses_of_settled
    (refersToRequired : package.RefersToRequired component)
    (isPackage : graph.package? id = some package)
    (areRequired : (graph.children id).map Prod.fst = package.requires.names)
    {selection : Selection}
    (settled : Selection.Settled graph root wanted selection)
    (isSelected : package.name ∈ selection.components id)
    {child : NodeId}
    {dependency : String}
    (isChild : (dependency, child) ∈ graph.children id) :
    selection.uses id dependency = true
      ∧ ∀ owner, graph.package? child = some owner →
          ∀ name ∈ owner.defaults, name ∈ selection.components child := by
  have isRequired : dependency ∈ package.requires.names :=
    areRequired ▸ List.mem_map_of_mem isChild
  obtain ⟨reference, isReference, rfl⟩ :=
    List.mem_map.mp ((refersToRequired.mem_required_iff dependency).mpr isRequired)
  have isComponent := refersToRequired.get?_eq_some_iff.mpr ⟨rfl, rfl⟩
  have refers : graph.Refers id package.name reference :=
    ⟨package, component, isPackage, isComponent, isReference⟩
  have isExternal := Reference.isInternal_eq_false_iff.mp
    (refersToRequired.isExternal reference isReference)
  have isFound := Graph.child?_eq_some_iff.mp (child?_eq_some areRequired isChild)
  constructor
  · exact settled.uses_iff.mpr ⟨⟨child, Graph.mem_children.mp isChild⟩, package.name,
      isSelected, reference, refers, isExternal, rfl⟩
  · intro owner isOwner name isDefault
    have isMeant : reference.Means owner name := by
      rw [Reference.Means, refersToRequired.meansDefaults reference isReference]
      exact Package.mem_defaults.mp isDefault
    exact settled.mem_components_iff.mpr (.external
      (settled.mem_components_iff.mp isSelected) refers isExternal isFound
      ⟨owner, isOwner, isMeant⟩)

/-- No demand of a node is undeclared. -/
theorem node_ne_of_undeclared
    (refersToRequired : package.RefersToRequired component)
    (isPackage : graph.package? id = some package)
    (areRequired : (graph.children id).map Prod.fst = package.requires.names)
    {demand : Selection.Demand}
    (undeclared : Undeclared graph root wanted demand) :
    demand.node ≠ id := by
  rintro rfl
  obtain ⟨⟨name, reference, _, refers, _, isDependency⟩, isMissing⟩ := undeclared
  obtain ⟨child, isChild⟩ :=
    refersToRequired.exists_child isPackage areRequired refers
  rw [isDependency, isMissing] at isChild
  contradiction

/-- A component of a node that is needed but not defined is asked for by its name, or a
reference of another node names it. -/
theorem named_elsewhere
    (refersToRequired : package.RefersToRequired component)
    (isPackage : graph.package? id = some package)
    (needed : graph.Needed root wanted id name)
    (isUndefined : name ∉ package.components.names) :
    (root = id ∧ name ∈ wanted.components)
      ∨ ∃ other referrer reference, other ≠ id
        ∧ graph.Needed root wanted other referrer
        ∧ graph.Refers other referrer reference ∧ graph.Target other reference id
        ∧ reference.component = some name := by
  rcases needed.named isPackage (refersToRequired.not_mem_defaults isUndefined) with
    isAsked | ⟨other, referrer, reference, isNeeded, refers, isTarget, isNamed⟩
  · exact Or.inl isAsked
  · refine Or.inr ⟨other, referrer, reference, ?_, isNeeded, refers, isTarget, isNamed⟩
    rintro rfl
    have isReference := refersToRequired.mem_requires_of_refers isPackage refers
    rw [refersToRequired.meansDefaults reference isReference] at isNamed
    contradiction

end Package.RefersToRequired

/-! ## In a session -/

namespace Description
namespace Legacy

/-- A package that is loaded from variables and properties has one component, which is
its default, and which refers to just the packages that are required, for their
defaults. After any calls, a node of the package has one dependency for each of them.
Whenever propagation selects its default component, the node uses all of them, with their
defaults. No warning is of a demand of this node. A component of it that is missing was
asked for by its name, or a reference of another node names it. -/
theorem load_uses_required
    {text : String}
    {source : Path}
    {package : Package}
    (isLoaded : load text source = .ok package) :
    (∃ component, package.RefersToRequired component)
      ∧ ∀ (calls : List (World × Call)) (graph : Graph) (id : NodeId),
          graph = (Session.run calls).registry.graph →
          graph.package? id = some package →
          (graph.children id).map Prod.fst = package.requires.names
            ∧ ∀ root wanted,
                (∀ selection,
                    (Selection.propagate graph root wanted).outcome = .ok selection →
                    package.name ∈ selection.components id →
                    ∀ dependency child, (dependency, child) ∈ graph.children id →
                      selection.uses id dependency = true
                        ∧ ∀ owner, graph.package? child = some owner →
                            ∀ name ∈ owner.defaults, name ∈ selection.components child)
                  ∧ (∃ undeclared : List Selection.Demand,
                      (Selection.propagate graph root wanted).warnings =
                          undeclared.map (Selection.warningFor graph)
                        ∧ ∀ demand ∈ undeclared, demand.node ≠ id
                          ∧ Selection.Undeclared graph root wanted demand)
                  ∧ ∀ failure, root ∈ graph.nodes →
                      (Selection.propagate graph root wanted).outcome =
                        .error failure →
                      ∃ node name owner, graph.Needed root wanted node name
                        ∧ graph.package? node = some owner
                        ∧ name ∉ owner.components.names
                        ∧ failure = .missingComponents owner.name [name]
                        ∧ (node = id →
                            (root = id ∧ name ∈ wanted.components)
                              ∨ ∃ other referrer reference, other ≠ id
                                ∧ graph.Needed root wanted other referrer
                                ∧ graph.Refers other referrer reference
                                ∧ graph.Target other reference id
                                ∧ reference.component = some name) := by
  obtain ⟨known, _, isRead⟩ := exists_ofProperties_of_load isLoaded
  obtain ⟨component, refersToRequired⟩ := refersToRequired_of_ofProperties isRead
  refine ⟨⟨component, refersToRequired⟩, ?_⟩
  rintro calls graph id rfl isPackage
  have areRequired := (Session.run_sound calls).names_children isPackage
  refine ⟨areRequired, fun root wanted => ⟨?_, ?_, ?_⟩⟩
  · intro selection isPropagated isSelected dependency child isChild
    exact refersToRequired.uses_of_settled isPackage areRequired
      (Selection.settled_of_propagate isPropagated) isSelected isChild
  · obtain ⟨undeclared, areWarnings, areUndeclared⟩ :=
      Selection.warnings_propagate _ root wanted
    refine ⟨undeclared, areWarnings, fun demand isDemand => ?_⟩
    have isUndeclared := areUndeclared demand isDemand
    exact ⟨refersToRequired.node_ne_of_undeclared isPackage areRequired isUndeclared,
      isUndeclared⟩
  · intro failure isNode fails
    obtain ⟨node, name, owner, needed, isOwner, isUndefined, isFailure⟩ :=
      Selection.misses_of_propagate isNode fails
    refine ⟨node, name, owner, needed, isOwner, isUndefined, isFailure, ?_⟩
    rintro rfl
    cases isPackage.symm.trans isOwner
    exact refersToRequired.named_elsewhere isPackage needed isUndefined

/-- A description that lists the package that it requires twice. -/
def listedTwice : String :=
  "Name: a\nRequires: b.pc >= 1, b.pc\n"

/-- A tree with that description and one of the required package, which requires the
first in turn. -/
def listedTwiceWorld : World where
  files := {
    entries := [
      (["a.pc"], .file listedTwice.toUTF8),
      (["b.pc"], .file "Name: b\nRequires: a.pc\n".toUTF8)] }
  search := { directories := [] }

/-- The graph of that package. -/
def listedTwiceGraph : Graph :=
  (Session.run [(listedTwiceWorld, .build "a.pc" {})]).registry.graph

/-- The defaults of that package use the defaults of the one that it requires. -/
theorem load_uses_required_listedTwice :
    ∃ package selection, load listedTwice ⟨"a.pc"⟩ = .ok package
      ∧ listedTwiceGraph.package? 0 = some package
      ∧ (Selection.propagate listedTwiceGraph 0 { defaults := true }).outcome =
          .ok selection
      ∧ selection.uses 0 "b.pc" = true := by
  obtain ⟨package, isLoaded⟩ := Outcome.eq_ok_of_isOk
    (by decide +kernel : (load listedTwice ⟨"a.pc"⟩).isOk = true)
  have isPackage : listedTwiceGraph.package? 0 = some package := by
    have isSame : listedTwiceGraph.package? 0 = (load listedTwice ⟨"a.pc"⟩).toOption := by
      decide +kernel
    rw [isSame, isLoaded]
    rfl
  obtain ⟨selection, isPropagated⟩ := Outcome.eq_ok_of_isOk
    (by decide +kernel : (Selection.propagate listedTwiceGraph 0
      { defaults := true }).outcome.isOk = true)
  have isChild : ("b.pc", 1) ∈ listedTwiceGraph.children 0 :=
    Graph.mem_children.mpr (by decide +kernel)
  obtain ⟨⟨component, refersToRequired⟩, inGraph⟩ := load_uses_required isLoaded
  have isSelected : package.name ∈ selection.components 0 :=
    (Selection.settled_of_propagate isPropagated).hasAsked
      ⟨package, isPackage, Or.inr
        ⟨rfl, [package.name], refersToRequired.isDefault, List.mem_cons_self⟩⟩
  have usesAll := ((inGraph _ listedTwiceGraph 0 rfl isPackage).2 0
    { defaults := true }).1 selection isPropagated isSelected
  exact ⟨package, selection, isLoaded, isPackage, isPropagated,
    (usesAll "b.pc" 1 isChild).1⟩

end Legacy
end Description
end PackageFlags
