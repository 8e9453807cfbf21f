import PackageFlags.Proofs.Registry.Causes
import PackageFlags.Proofs.Registry.Contents
import PackageFlags.Proofs.Registry.Persistence

/-!
# Merging what is loaded

The last pass cannot fail on packages that were loaded: propagation selects defined
components only, and descriptions are rejected when an artifact has no location. So a
query fails because of a description, a name without candidates or a component that
is not defined, and never because the packages in the registry do not fit each other.
-/

namespace PackageFlags

namespace Failure

/-- Building does not fail for a missing location or a package graph that does not
fit what is asked of it. -/
theorem OfBuilding.ofDescriptions
    {failure : Failure}
    (ofBuilding : failure.OfBuilding) :
    failure.kind ≠ .graph
      ∧ ∀ package component, failure ≠ .missingLocation package component := by
  cases ofBuilding with
  | description isOf => cases failure <;> simp [isOfDescription, kind] at isOf ⊢
  | notFound name searched => simp [kind]
  | rejected name isCause causesOf => simp [kind]

end Failure

section Merging

variable {package : Package} {graph : Graph} {selection : Selection}

/-- A component of a well-formed package has settings. -/
theorem Package.WellFormed.exists_settingsOf
    (wellFormed : package.WellFormed)
    {name : String}
    (isDefined : name ∈ package.components.names)
    (root : Path) :
    ∃ settings, package.settingsOf root name = .ok settings := by
  obtain ⟨component, isComponent⟩ := NameMap.mem_names_iff.mp isDefined
  have hasArtifacts : ∃ artifacts, component.artifacts = some artifacts := by
    unfold Component.artifacts
    split
    · exact ⟨[], rfl⟩
    · rename_i notInterface
      obtain ⟨location, isLocated⟩ :=
        (wellFormed.components name component isComponent).located notInterface
      rw [isLocated]
      cases component.linkLocation with
      | some path => exact ⟨[path], rfl⟩
      | none => exact ⟨[location], rfl⟩
  obtain ⟨artifacts, areArtifacts⟩ := hasArtifacts
  unfold Package.settingsOf Component.settings?
  simp only [isComponent, areArtifacts, Option.map_some]
  exact ⟨_, rfl⟩

/-- Merging succeeds when packages are well-formed and selected components defined,
whichever nodes are taken in whatever order. -/
theorem Graph.exists_aggregate
    (areWellFormed : ∀ id package, graph.package? id = some package →
      package.WellFormed)
    (areDefined : ∀ id name, name ∈ selection.components id →
      graph.Defines id name)
    {order : List NodeId}
    (areNodes : ∀ id ∈ order, id ∈ graph.nodes)
    (root : Option Path) :
    ∃ flags, graph.aggregate selection order root = .ok flags := by
  have hasSettings : ∀ id ∈ order,
      ∃ settings, graph.settingsAt selection root id = .ok settings := by
    intro id isPlaced
    obtain ⟨package, isPackage⟩ := Graph.mem_nodes_iff.mp (areNodes id isPlaced)
    have wellFormed := areWellFormed id package isPackage
    obtain ⟨parts, areParts⟩ : ∃ parts, (selection.components id).mapM
        (package.settingsOf (root.getD package.root)) = .ok parts := by
      apply Outcome.succeeds_mapM.mpr
      intro name isSelected
      obtain ⟨owner, isOwner, isDefined⟩ := areDefined id name isSelected
      cases isPackage.symm.trans isOwner
      exact wellFormed.exists_settingsOf isDefined _
    refine ⟨Settings.concat parts, ?_⟩
    simp only [settingsAt, isPackage, areParts, Except.map]
  obtain ⟨settings, areSettings⟩ := Outcome.succeeds_mapM.mpr hasSettings
  unfold Graph.aggregate
  rw [areSettings]
  exact ⟨_, rfl⟩

end Merging

namespace Selection

variable {graph : Graph} {root : NodeId}

/-- A warning is about a package of the graph. -/
def OfGraph (graph : Graph) (warning : Warning) : Prop :=
  ∃ id package, graph.package? id = some package
    ∧ warning.package = package.name

/-- Demands of nodes that are there lead to warnings about their packages. -/
theorem ofGraph_of_meet
    {warnings : List Warning}
    {selection : Selection}
    {demands : List Demand}
    (areNodes : ∀ demand ∈ demands, demand.node ∈ graph.nodes)
    (areOfGraph : ∀ warning ∈ warnings, OfGraph graph warning) :
    ∀ warning ∈ (meet graph warnings selection demands).warnings,
      OfGraph graph warning := by
  fun_induction meet graph warnings selection demands with
  | case1 warnings selection => exact areOfGraph
  | case2 warnings selection demand rest isMissing restOfGraph =>
      refine restOfGraph (fun other later =>
        areNodes other (List.mem_cons_of_mem demand later)) ?_
      intro warning member
      rcases List.mem_append.mp member with isOld | isNew
      · exact areOfGraph warning isOld
      · obtain ⟨package, isPackage⟩ :=
          Graph.mem_nodes_iff.mp (areNodes demand List.mem_cons_self)
        refine ⟨demand.node, package, isPackage, ?_⟩
        rw [List.mem_singleton.mp isNew]
        simp only [warningFor, isPackage]
  | case3 warnings selection demand rest child isChild failure fails =>
      exact areOfGraph
  | case4 warnings selection demand rest child isChild next more isVisited
      restOfGraph =>
      refine restOfGraph (fun other member => ?_) areOfGraph
      rcases List.mem_append.mp member with isMore | isLater
      · obtain ⟨package, added, isPackage, _, _, rfl⟩ := visit_eq_ok isVisited
        rw [node_of_mem_demandsOf isMore]
        exact Graph.mem_nodes_of_package? isPackage
      · exact areNodes other (List.mem_cons_of_mem demand isLater)

/-- All warnings of propagation are about packages of the graph. -/
theorem ofGraph_of_propagate
    (graph : Graph)
    (root : NodeId)
    (wanted : Wanted) :
    ∀ warning ∈ (propagate graph root wanted).warnings, OfGraph graph warning := by
  unfold propagate
  cases isVisited : visit graph empty root wanted with
  | error failure => exact fun _ member => absurd member List.not_mem_nil
  | ok visited =>
      obtain ⟨package, added, isPackage, _, _, areDemands⟩ := visit_eq_ok isVisited
      refine ofGraph_of_meet (fun demand isDemand => ?_)
        fun _ member => absurd member List.not_mem_nil
      rw [areDemands] at isDemand
      rw [node_of_mem_demandsOf isDemand]
      exact Graph.mem_nodes_of_package? isPackage

end Selection

/-- On well-formed packages a query fails for a component that is not defined. -/
theorem Query.ofBuilding_of_answerAt
    {query : Query}
    {graph : Graph}
    {root : NodeId}
    {failure : Failure}
    (areWellFormed : ∀ id package, graph.package? id = some package →
      package.WellFormed)
    (isNode : root ∈ graph.nodes)
    (failed : (query.answerAt graph root).outcome = .error failure) :
    failure.OfBuilding := by
  unfold Query.answerAt at failed
  cases isPropagated : (Selection.propagate graph root query.wanted).outcome with
  | error cause =>
      simp only [isPropagated, Except.error.injEq] at failed
      obtain ⟨_, _, _, _, _, _, isMissing⟩ :=
        Selection.misses_of_propagate isNode isPropagated
      rw [← failed, isMissing]
      exact .description rfl
  | ok selection =>
      simp only [isPropagated] at failed
      have settled := Selection.settled_of_propagate isPropagated
      obtain ⟨flags, isMerged⟩ := Graph.exists_aggregate areWellFormed
        (fun _ _ isSelected => settled.sound.defined isSelected)
        (fun _ => Graph.mem_nodes_of_mem_flatten) query.root
      rw [isMerged] at failed
      contradiction

namespace Session

/-- What has been selected on packages that are loaded is merged at every later
point, whichever nodes are taken in whatever order. -/
theorem exists_aggregate_of_propagate
    (calls later : List (World × Call))
    {root : NodeId}
    {wanted : Wanted}
    {selection : Selection}
    (isPropagated : (Selection.propagate (run calls).registry.graph root
      wanted).outcome = .ok selection)
    {order : List NodeId}
    (areNodes : ∀ id ∈ order, id ∈ (run (calls ++ later)).registry.graph.nodes)
    (override : Option Path) :
    ∃ flags, (run (calls ++ later)).registry.graph.aggregate selection order
      override = .ok flags := by
  have grows := run_extends calls later
  refine Graph.exists_aggregate (fun _ _ => run_wellFormed (calls ++ later)) ?_
    areNodes override
  intro id name isSelected
  obtain ⟨package, isPackage, isDefined⟩ :=
    (Selection.settled_of_propagate isPropagated).sound.defined isSelected
  exact ⟨package, grows.package?_eq_some isPackage, isDefined⟩

/-- A query fails as building does, or for a component that is not defined. -/
theorem ofBuilding_of_resolve
    (calls : List (World × Call))
    {query : Query}
    {world : World}
    {failure : Failure}
    (failed : (query.resolve world (run calls).registry).2.outcome =
      .error failure) :
    failure.OfBuilding := by
  have consistent := (run_sound calls).consistent
  unfold Query.resolve at failed
  cases isBuilt : (run calls).registry.build world query.name
      { components := query.components } with
  | mk after outcome =>
      cases outcome with
      | error cause =>
          simp only [isBuilt, Except.error.injEq] at failed
          exact failed ▸ Registry.ofBuilding_of_build consistent isBuilt
      | ok root =>
          simp only [isBuilt] at failed
          have found := (Registry.build_sound world).found consistent isBuilt
          have isNode : root ∈ after.graph.nodes :=
            found.consistent.mem_nodes_iff.mpr ⟨query.name, found.cached⟩
          -- the registry is the one that a call to build the package leaves
          have isRun : (run (calls ++ [(world, .build query.name
              { components := query.components })])).registry = after := by
            rw [run_append_singleton]
            exact congrArg Prod.fst isBuilt
          refine Query.ofBuilding_of_answerAt ?_ isNode failed
          exact fun _ _ isPackage => run_wellFormed _ (isRun ▸ isPackage)

/-- After any calls all packages are well-formed. A later query that fails does not
fail, at any depth, for a missing location or for nodes and components that are not
there, and its warnings are about packages that are. What propagation selects is
merged at every later point for any list of nodes. -/
theorem run_merges (calls later : List (World × Call)) :
    (∀ id package, (run calls).registry.graph.package? id = some package →
        package.WellFormed)
      ∧ (∀ (query : Query) world failure part,
          (query.resolve world (run calls).registry).2.outcome =
            .error failure →
          failure.Contains part →
          part.kind ≠ .graph
            ∧ ∀ package component, part ≠ .missingLocation package component)
      ∧ (∀ (query : Query) world,
          ∀ warning ∈ (query.resolve world (run calls).registry).2.warnings,
            Selection.OfGraph
              (query.resolve world (run calls).registry).1.graph warning)
      ∧ ∀ root wanted selection,
          (Selection.propagate (run calls).registry.graph root wanted).outcome =
            .ok selection →
          ∀ order : List NodeId,
            (∀ id ∈ order,
              id ∈ (run (calls ++ later)).registry.graph.nodes) →
            ∀ override, ∃ flags,
              (run (calls ++ later)).registry.graph.aggregate selection order
                override = .ok flags := by
  refine ⟨fun _ _ => run_wellFormed calls, ?_, ?_, ?_⟩
  · intro query world failure part failed contains
    exact ((ofBuilding_of_resolve calls failed).part contains).ofDescriptions
  · intro query world
    unfold Query.resolve
    split
    · exact fun _ member => absurd member List.not_mem_nil
    · exact Selection.ofGraph_of_propagate _ _ _
  · intro root wanted selection isPropagated order areNodes override
    exact exists_aggregate_of_propagate calls later isPropagated areNodes override

end Session
end PackageFlags
