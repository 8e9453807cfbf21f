import PackageFlags.Proofs.Outcome
import PackageFlags.Proofs.Registry.Dependencies
import PackageFlags.Proofs.Registry.Rollback
import PackageFlags.Registry.Building

/-!
# What builders owe

A builder that is asked for a name either gives its node or leaves the registry as
it was. With the node, the registry has grown by finished nodes that the node
reaches; nodes that were there may be unfinished still, as those are whose
requirements are just being built. Each step of building owes this as soon as the
builder for the requirements does.
-/

namespace PackageFlags
namespace Registry

/-- The node for a name under a requirement has been found or loaded. -/
structure Found
    (before after : Registry)
    (name : String)
    (requirement : Requirement)
    (id : NodeId) : Prop where
  consistent : Consistent after
  grows : Extends before after
  /-- The name has the node. -/
  cached : after.find? name = some id
  /-- The package at the node meets the requirement. -/
  meets : after.Meets id requirement
  /-- New nodes are finished, and reached from the node. -/
  complete : ∀ node ∈ after.graph.nodes, node ∉ before.graph.nodes →
    after.Finished node ∧ after.graph.Reaches id node

/-- The nodes for requirements have been found or loaded. -/
structure FoundAll
    (before after : Registry)
    (requirements : List (String × Requirement))
    (children : List (String × NodeId)) : Prop where
  consistent : Consistent after
  grows : Extends before after
  /-- The nodes provide what is required. -/
  provided : List.Forall₂ after.Provides children requirements
  /-- New nodes are finished, and reached from one of the nodes. -/
  complete : ∀ node ∈ after.graph.nodes, node ∉ before.graph.nodes →
    after.Finished node ∧ ∃ child ∈ children, after.graph.Reaches child.2 node

/-- What a builder owes on consistent registries. -/
structure Sound (builder : Builder) : Prop where
  /-- A node that is given has been found or loaded. -/
  found : ∀ {before after name requirement id}, Consistent before →
    builder before name requirement = (after, .ok id) →
    Found before after name requirement id
  /-- A failure leaves the registry as it was. -/
  restored : ∀ {before after name requirement failure}, Consistent before →
    builder before name requirement = (after, .error failure) →
    after = before

variable {builder : Builder} {before after : Registry}

/-- A node that is in the registry already has been found. -/
theorem Found.of_cached
    (consistent : Consistent before)
    {name : String}
    {requirement : Requirement}
    {id : NodeId}
    (cached : before.find? name = some id)
    (meets : before.Meets id requirement) :
    Found before before name requirement id where
  consistent := consistent
  grows := Extends.refl before
  cached := cached
  meets := meets
  complete := fun _ isNode isNew => absurd isNode isNew

theorem FoundAll.nil (consistent : Consistent before) :
    FoundAll before before [] [] where
  consistent := consistent
  grows := Extends.refl before
  provided := List.Forall₂.nil
  complete := fun _ isNode isNew => absurd isNode isNew

theorem FoundAll.cons
    {middle : Registry}
    {name : String}
    {requirement : Requirement}
    {id : NodeId}
    {requirements : List (String × Requirement)}
    {children : List (String × NodeId)}
    (first : Found before middle name requirement id)
    (rest : FoundAll middle after requirements children) :
    FoundAll before after
      ((name, requirement) :: requirements) ((name, id) :: children) where
  consistent := rest.consistent
  grows := first.grows.trans rest.grows
  provided := by
    apply List.Forall₂.cons
    · refine ⟨rfl, ?_, rest.grows.meets first.meets⟩
      exact rest.grows.find?_eq_some first.consistent first.cached
    · exact rest.provided
  complete := by
    intro node isNode isNew
    by_cases wasMiddle : node ∈ middle.graph.nodes
    · obtain ⟨finished, reached⟩ := first.complete node wasMiddle isNew
      refine ⟨rest.grows.finished first.consistent finished, ?_⟩
      exact ⟨(name, id), List.mem_cons_self, rest.grows.reaches reached⟩
    · obtain ⟨finished, child, isChild, reached⟩ :=
        rest.complete node isNode wasMiddle
      exact ⟨finished, child, List.mem_cons_of_mem _ isChild, reached⟩

/-- A package that is loaded for a requirement is read from the file and meets
the requirement. -/
theorem loadCandidate_eq_ok
    {world : World}
    {requirement : Requirement}
    {candidate : Candidate}
    {package : Package}
    (isLoaded : loadCandidate world requirement candidate = .ok package) :
    Description.loadFile world.files candidate.format candidate.path =
        .ok package
      ∧ requirement.check package = .ok () := by
  unfold loadCandidate at isLoaded
  obtain ⟨read, isRead, isChecked⟩ := Outcome.bind_eq_ok.mp isLoaded
  obtain ⟨_, isMet, same⟩ := Outcome.bind_eq_ok.mp isChecked
  exact Outcome.pure_eq_ok.mp same ▸ ⟨isRead, isMet⟩

/-- A node is used again if its package meets the requirement. -/
theorem reuse_eq_ok
    {id node : NodeId}
    {requirement : Requirement}
    (reused : before.reuse id requirement = .ok node) :
    node = id ∧ before.Meets id requirement := by
  unfold reuse at reused
  cases isPackage : before.graph.package? id with
  | none => simp [isPackage] at reused
  | some package =>
      simp only [isPackage] at reused
      obtain ⟨_, isChecked, same⟩ := Outcome.map_eq_ok.mp reused
      exact ⟨same.symm, package, isPackage, isChecked⟩

namespace Sound

/-- Requirements that are all built have been found or loaded. -/
theorem foundAll
    (sound : Sound builder)
    (consistent : Consistent before)
    {requirements : List (String × Requirement)}
    {children : List (String × NodeId)}
    (result : buildRequired builder before requirements =
      (after, .ok children)) :
    FoundAll before after requirements children := by
  induction requirements generalizing before children with
  | nil =>
      cases result
      exact FoundAll.nil consistent
  | cons first rest restFound =>
      obtain ⟨name, requirement⟩ := first
      rw [buildRequired] at result
      split at result
      · simp at result
      · rename_i middle id isFirst
        have found := sound.found consistent isFirst
        split at result
        · simp at result
        · rename_i grown others isRest
          cases result
          exact FoundAll.cons found (restFound found.consistent isRest)

/-- Requirements of which one fails leave a registry that has grown. -/
theorem grows_of_error
    (sound : Sound builder)
    (consistent : Consistent before)
    {requirements : List (String × Requirement)}
    {failure : Failure}
    (result : buildRequired builder before requirements =
      (after, .error failure)) :
    Consistent after ∧ Extends before after := by
  induction requirements generalizing before with
  | nil => simp [buildRequired] at result
  | cons first rest restGrows =>
      obtain ⟨name, requirement⟩ := first
      rw [buildRequired] at result
      split at result
      · rename_i middle firstFailure isFirst
        cases result
        rw [sound.restored consistent isFirst]
        exact ⟨consistent, Extends.refl before⟩
      · rename_i middle id isFirst
        have found := sound.found consistent isFirst
        split at result
        · rename_i grown restFailure isRest
          cases result
          have restResult := restGrows found.consistent isRest
          exact ⟨restResult.1, found.grows.trans restResult.2⟩
        · simp at result

/-- When a package is added, all nodes that are to be connected are there: its own node,
and one for each of its requirements. -/
theorem addPackage_eq_ok
    (sound : Sound builder)
    (consistent : Consistent before)
    {name : String}
    {package : Package}
    {id : NodeId}
    (isNew : before.find? name = none)
    (result : addPackage builder before name package = (after, .ok id)) :
    ∃ grown children, after = grown.connect id children ∧ id = before.graph.fresh
      ∧ FoundAll (before.enter name package) grown package.requires.entries children
      ∧ grown.graph.package? id = some package
      ∧ ∀ child ∈ children, child.2 ∈ grown.graph.nodes := by
  unfold addPackage at result
  split at result
  · simp at result
  · rename_i grown children isBuilt
    cases result
    have all := sound.foundAll (consistent.enter isNew package) isBuilt
    exact ⟨grown, children, rfl, rfl, all,
      all.grows.package?_eq_some (before.graph.package?_add_fresh package),
      mem_nodes_of_provided all.provided⟩

/-- When a package is added, each of its requirements gets an edge: none is dropped because
one of its ends is missing. -/
theorem edges_addPackage
    (sound : Sound builder)
    (consistent : Consistent before)
    {name : String}
    {package : Package}
    {id : NodeId}
    (isNew : before.find? name = none)
    (result : addPackage builder before name package = (after, .ok id)) :
    ∃ grown children,
      FoundAll (before.enter name package) grown package.requires.entries children
        ∧ after.graph.edges =
            (children.map fun child => ⟨id, child.1, child.2⟩).reverse
              ++ grown.graph.edges := by
  obtain ⟨grown, children, rfl, _, all, isPackage, areNodes⟩ :=
    sound.addPackage_eq_ok consistent isNew result
  exact ⟨grown, children, all,
    edges_connect (Graph.mem_nodes_of_package? isPackage) areNodes⟩

/-- A package whose requirements are met is found at its node. -/
theorem addPackage_ok
    (sound : Sound builder)
    (consistent : Consistent before)
    {name : String}
    {requirement : Requirement}
    {package : Package}
    {id : NodeId}
    (isNew : before.find? name = none)
    (meets : requirement.check package = .ok ())
    (result : addPackage builder before name package = (after, .ok id)) :
    Found before after name requirement id := by
  obtain ⟨grown, children, rfl, rfl, all, isPackage, areNodes⟩ :=
    sound.addPackage_eq_ok consistent isNew result
  have isNode := Graph.mem_nodes_of_package? isPackage
  have grows : Extends before grown :=
    (Extends.enter consistent isNew package).trans all.grows
  exact {
    consistent := all.consistent.connect _ _
    grows := grows.connect isNode before.graph.fresh_not_mem areNodes
    cached := by
      rw [find?_connect]
      exact all.grows.find?_eq_some (consistent.enter isNew package) (by simp)
    meets := ⟨package, by rwa [package?_connect], meets⟩
    complete := by
      -- a new node is that of the package, or it came with its requirements
      intro node isThere isNewNode
      rw [nodes_connect] at isThere
      by_cases isSelf : node = before.graph.fresh
      · subst isSelf
        refine ⟨?_, Graph.Reaches.refl _ _⟩
        exact finished_connect_self isPackage all.grows.source_ne_fresh
          all.provided
      · have notEntered : node ∉ (before.enter name package).graph.nodes := by
          simp [isNewNode, isSelf]
        obtain ⟨finished, child, isChild, reached⟩ :=
          all.complete node isThere notEntered
        exact ⟨finished_connect_of_ne isNode areNodes isSelf finished,
          reaches_connect isNode areNodes isChild reached⟩ }

/-- A package of which a requirement fails leaves the registry as it was. -/
theorem addPackage_error
    (sound : Sound builder)
    (consistent : Consistent before)
    {name : String}
    {package : Package}
    {failure : Failure}
    (isNew : before.find? name = none)
    (result : addPackage builder before name package =
      (after, .error failure)) :
    after = before := by
  unfold addPackage at result
  split at result
  · rename_i grown cause isBuilt
    cases result
    obtain ⟨grownConsistent, grows⟩ :=
      sound.grows_of_error (consistent.enter isNew package) isBuilt
    have fromBefore : Extends before grown :=
      (Extends.enter consistent isNew package).trans grows
    exact fromBefore.rollback consistent grownConsistent
  · simp at result

/-- A candidate that works is found at its node. -/
theorem tryCandidate_ok
    (sound : Sound builder)
    (consistent : Consistent before)
    {world : World}
    {name : String}
    {requirement : Requirement}
    {candidate : Candidate}
    {id : NodeId}
    (isNew : before.find? name = none)
    (result : tryCandidate world builder before name requirement candidate =
      (after, .ok id)) :
    Found before after name requirement id := by
  unfold tryCandidate at result
  split at result
  · simp at result
  · rename_i package isLoaded
    exact sound.addPackage_ok consistent isNew
      (loadCandidate_eq_ok isLoaded).2 result

/-- A candidate that fails leaves the registry as it was. -/
theorem tryCandidate_error
    (sound : Sound builder)
    (consistent : Consistent before)
    {world : World}
    {name : String}
    {requirement : Requirement}
    {candidate : Candidate}
    {failure : Failure}
    (isNew : before.find? name = none)
    (result : tryCandidate world builder before name requirement candidate =
      (after, .error failure)) :
    after = before := by
  unfold tryCandidate at result
  split at result
  · cases result
    rfl
  · exact sound.addPackage_error consistent isNew result

/-- The first candidate that works is found at its node. -/
theorem tryCandidates_ok
    (sound : Sound builder)
    (consistent : Consistent before)
    {world : World}
    {name : String}
    {requirement : Requirement}
    {candidates : List Candidate}
    {id : NodeId}
    (isNew : before.find? name = none)
    (result : tryCandidates world builder before name requirement candidates =
      (after, .ok id)) :
    Found before after name requirement id := by
  induction candidates with
  | nil => simp [tryCandidates] at result
  | cons first rest restFound =>
      rw [tryCandidates] at result
      split at result
      · rename_i grown firstId isFirst
        cases result
        exact sound.tryCandidate_ok consistent isNew isFirst
      · rename_i middle failure isFirst
        rw [sound.tryCandidate_error consistent isNew isFirst] at result
        split at result
        · rename_i grown restId isRest
          cases result
          exact restFound isRest
        · simp at result

/-- Candidates that all fail leave the registry as it was. -/
theorem tryCandidates_error
    (sound : Sound builder)
    (consistent : Consistent before)
    {world : World}
    {name : String}
    {requirement : Requirement}
    {candidates : List Candidate}
    {failures : List Failure}
    (isNew : before.find? name = none)
    (result : tryCandidates world builder before name requirement candidates =
      (after, .error failures)) :
    after = before := by
  induction candidates generalizing failures with
  | nil =>
      cases result
      rfl
  | cons first rest restSame =>
      rw [tryCandidates] at result
      split at result
      · simp at result
      · rename_i middle failure isFirst
        rw [sound.tryCandidate_error consistent isNew isFirst] at result
        split at result
        · simp at result
        · rename_i grown restFailures isRest
          cases result
          exact restSame isRest

/-- Finding or loading a name owes the same as building its requirements. -/
theorem findOrLoad
    (world : World)
    (sound : Sound builder) :
    Sound (Registry.findOrLoad world builder) where
  found := by
    intro before after name requirement id consistent result
    unfold Registry.findOrLoad at result
    split at result
    · rename_i node isCached
      obtain ⟨rfl, reused⟩ := Prod.mk.inj result
      obtain ⟨rfl, meets⟩ := reuse_eq_ok reused
      exact Found.of_cached consistent isCached meets
    · rename_i isNew
      unfold loadName at result
      split at result
      · simp at result
      · rename_i candidates isCandidates
        split at result
        · rename_i grown node isTried
          cases result
          exact sound.tryCandidates_ok consistent isNew isTried
        · simp at result
  restored := by
    intro before after name requirement failure consistent result
    unfold Registry.findOrLoad at result
    split at result
    · exact (Prod.mk.inj result).1.symm
    · rename_i isNew
      unfold loadName at result
      split at result
      · cases result
        rfl
      · rename_i candidates isCandidates
        split at result
        · simp at result
        · rename_i grown failures isTried
          cases result
          exact sound.tryCandidates_error consistent isNew isTried

end Sound

/-- Building owes what builders owe, however deeply requirements may be
nested. -/
theorem buildWithin_sound (world : World) (limit : Nat) :
    Sound (buildWithin world limit) := by
  induction limit with
  | zero =>
      exact {
        found := by
          intro before after name requirement id _ result
          simp [buildWithin] at result
        restored := by
          intro before after name requirement failure _ result
          cases result
          rfl }
  | succ limit limitSound => exact limitSound.findOrLoad world

theorem build_sound (world : World) : Sound (build world) :=
  buildWithin_sound world (nestingLimit world)

end Registry
end PackageFlags
