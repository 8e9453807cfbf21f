import PackageFlags.Proofs.Failures
import PackageFlags.Proofs.Registry.Nesting

/-!
# Why building fails

Building fails because of descriptions and of names without candidates alone. A name
for which all candidates fail has had one at least, the node of a name that is in the
registry has a package, and the limit on nesting is never a reason.
-/

namespace PackageFlags

namespace SearchPath

variable {search : SearchPath} {files : FileSystem} {name : String}

/-- A name that has candidates has one at least. -/
theorem candidates_ne_nil
    {candidates : List Candidate}
    (areCandidates : search.candidates files name = .ok candidates) :
    candidates ≠ [] := by
  unfold SearchPath.candidates at areCandidates
  dsimp only at areCandidates
  split at areCandidates
  · exact Except.ok.inj areCandidates ▸ List.cons_ne_nil _ _
  · split at areCandidates
    · contradiction
    · rename_i isFound
      exact Except.ok.inj areCandidates ▸ isFound

/-- A name without candidates is reported with the directories that were
searched. -/
theorem candidates_eq_error
    {failure : Failure}
    (failed : search.candidates files name = .error failure) :
    failure = .packageNotFound name (search.directories.map Prod.fst) := by
  unfold SearchPath.candidates at failed
  dsimp only at failed
  split at failed
  · contradiction
  · split at failed
    · exact (Except.error.inj failed).symm
    · contradiction

end SearchPath

namespace Registry

variable {world : World} {builder : Builder} {before after : Registry}
variable {name : String} {requirement : Requirement} {failure : Failure}

/-- Requirements fail with the first one that does, after those in front of it were
built. -/
theorem buildRequired_eq_error
    {requirements : List (String × Requirement)}
    (failed : buildRequired builder before requirements =
      (after, .error failure)) :
    ∃ earlier name requirement later middle children,
      requirements = earlier ++ (name, requirement) :: later
        ∧ buildRequired builder before earlier = (middle, .ok children)
        ∧ builder middle name requirement = (after, .error failure) := by
  induction requirements generalizing before with
  | nil => simp [buildRequired] at failed
  | cons first rest restFailed =>
      obtain ⟨name, requirement⟩ := first
      rw [buildRequired] at failed
      split at failed
      · rename_i grown cause isFirst
        cases failed
        exact ⟨[], name, requirement, rest, before, [], rfl, rfl, isFirst⟩
      · rename_i grown child isFirst
        split at failed
        · rename_i grown cause isRest
          cases failed
          obtain ⟨earlier, other, required, later, middle, children, rfl, isBuilt,
            isFailure⟩ := restFailed isRest
          refine ⟨(name, requirement) :: earlier, other, required, later, middle,
            (name, child) :: children, rfl, ?_, isFailure⟩
          simp only [buildRequired, isFirst, isBuilt]
        · simp at failed

/-- A candidate is not loaded if it cannot be read, or if its package does not meet
the requirement. -/
theorem loadCandidate_eq_error
    {candidate : Candidate}
    (failed : loadCandidate world requirement candidate = .error failure) :
    Description.loadFile world.files candidate.format candidate.path =
        .error failure
      ∨ ∃ package,
          Description.loadFile world.files candidate.format candidate.path =
              .ok package
            ∧ requirement.check package = .error failure := by
  rcases Outcome.bind_eq_error.mp failed with isUnread | ⟨package, isRead, isRest⟩
  · exact Or.inl isUnread
  · rcases Outcome.bind_eq_error.mp isRest with isUnmet | ⟨_, _, isDone⟩
    · exact Or.inr ⟨package, isRead, isUnmet⟩
    · simp [pure, Except.pure] at isDone

/-- A package fails with the first of its requirements that does. -/
theorem addPackage_eq_error
    {package : Package}
    (failed : addPackage builder before name package = (after, .error failure)) :
    ∃ grown, buildRequired builder (before.enter name package)
      package.requires.entries = (grown, .error failure) := by
  unfold addPackage at failed
  split at failed
  · rename_i grown cause isBuilt
    cases failed
    exact ⟨grown, isBuilt⟩
  · simp at failed

/-- A node that cannot be used again has a package that does not meet the
requirement. -/
theorem reuse_eq_error
    (consistent : Consistent before)
    {id : NodeId}
    (isCached : before.find? name = some id)
    (failed : before.reuse id requirement = .error failure) :
    ∃ package, before.graph.package? id = some package
      ∧ requirement.check package = .error failure := by
  have isNode : id ∈ before.graph.nodes :=
    consistent.mem_nodes_iff.mpr ⟨name, isCached⟩
  obtain ⟨package, isPackage⟩ := Graph.mem_nodes_iff.mp isNode
  unfold reuse at failed
  simp only [isPackage] at failed
  exact ⟨package, isPackage, Outcome.map_eq_error.mp failed⟩

/-- A builder fails as building does, for names that descriptions require and on
consistent registries with less room than a bound. -/
def FailsBelow (world : World) (bound : Nat) (builder : Builder) : Prop :=
  ∀ before after name requirement failure, Consistent before →
    name ∈ Description.requiredNames world.files → room world before < bound →
    builder before name requirement = (after, .error failure) →
    failure.OfBuilding

namespace FailsBelow

variable {bound : Nat}

theorem buildRequired
    (fails : FailsBelow world bound builder)
    (sound : Sound builder)
    (consistent : Consistent before)
    {requirements : List (String × Requirement)}
    (areRequired : ∀ entry ∈ requirements,
      entry.1 ∈ Description.requiredNames world.files)
    (isRoom : room world before < bound)
    (failed : Registry.buildRequired builder before requirements =
      (after, .error failure)) :
    failure.OfBuilding := by
  obtain ⟨earlier, name, requirement, later, middle, children, rfl, isBuilt,
    isFailure⟩ := buildRequired_eq_error failed
  have found := sound.foundAll consistent isBuilt
  have noMore : room world middle ≤ room world before := room_mono found.grows
  have isRequired : name ∈ Description.requiredNames world.files :=
    areRequired (name, requirement) (by simp)
  exact fails middle after name requirement failure found.consistent isRequired
    (by omega) isFailure

theorem tryCandidate
    (fails : FailsBelow world bound builder)
    (sound : Sound builder)
    (consistent : Consistent before)
    (isNew : before.find? name = none)
    (isRoom : ∀ package, room world (before.enter name package) < bound)
    {candidate : Candidate}
    (failed : Registry.tryCandidate world builder before name requirement
      candidate = (after, .error failure)) :
    failure.OfBuilding := by
  unfold Registry.tryCandidate at failed
  split at failed
  · rename_i cause isLoaded
    cases failed
    apply Failure.OfBuilding.description
    rcases loadCandidate_eq_error isLoaded with isUnread | ⟨package, _, isUnmet⟩
    · exact Description.isOfDescription_of_loadFile isUnread
    · exact Requirement.isOfDescription_of_check isUnmet
  · rename_i package isLoaded
    obtain ⟨grown, isFailure⟩ := addPackage_eq_error failed
    have areRequired : ∀ entry ∈ package.requires.entries,
        entry.1 ∈ Description.requiredNames world.files := fun entry member =>
      Description.mem_requiredNames_of_loadFile (loadCandidate_eq_ok isLoaded).1
        entry.1 (List.mem_map_of_mem member)
    exact fails.buildRequired sound (consistent.enter isNew package) areRequired
      (isRoom package) isFailure

theorem tryCandidates
    (fails : FailsBelow world bound builder)
    (sound : Sound builder)
    (consistent : Consistent before)
    (isNew : before.find? name = none)
    (isRoom : ∀ package, room world (before.enter name package) < bound)
    {candidates : List Candidate}
    {failures : List Failure}
    (failed : Registry.tryCandidates world builder before name requirement
      candidates = (after, .error failures)) :
    (candidates ≠ [] → failures ≠ [])
      ∧ ∀ cause ∈ failures, cause.OfBuilding := by
  induction candidates generalizing failures with
  | nil =>
      cases failed
      simp
  | cons first rest restFails =>
      rw [Registry.tryCandidates] at failed
      split at failed
      · simp at failed
      · rename_i middle cause isFirst
        have ofFirst := fails.tryCandidate sound consistent isNew isRoom isFirst
        rw [sound.tryCandidate_error consistent isNew isFirst] at failed
        split at failed
        · simp at failed
        · rename_i grown others isRest
          cases failed
          refine ⟨fun _ => List.cons_ne_nil _ _, ?_⟩
          exact List.forall_mem_cons.mpr ⟨ofFirst, (restFails isRest).2⟩

theorem findOrLoad
    (fails : FailsBelow world bound builder)
    (sound : Sound builder)
    (consistent : Consistent before)
    (isRoom : before.find? name = none →
      ∀ package, room world (before.enter name package) < bound)
    (failed : Registry.findOrLoad world builder before name requirement =
      (after, .error failure)) :
    failure.OfBuilding := by
  unfold Registry.findOrLoad at failed
  split at failed
  · rename_i id isCached
    obtain ⟨package, _, isUnmet⟩ :=
      reuse_eq_error consistent isCached (Prod.mk.inj failed).2
    exact .description (Requirement.isOfDescription_of_check isUnmet)
  · rename_i isNew
    unfold loadName at failed
    split at failed
    · rename_i cause isCause
      cases failed
      rw [SearchPath.candidates_eq_error isCause]
      exact .notFound name _
    · rename_i candidates areCandidates
      split at failed
      · simp at failed
      · rename_i grown failures areFailures
        cases failed
        have causes := fails.tryCandidates sound consistent isNew (isRoom isNew)
          areFailures
        exact .rejected name
          (causes.1 (SearchPath.candidates_ne_nil areCandidates)) causes.2

end FailsBelow

/-- With a larger limit than there is room, the limit is not a reason to fail. -/
theorem buildWithin_failsBelow (world : World) (limit : Nat) :
    FailsBelow world limit (buildWithin world limit) := by
  induction limit with
  | zero =>
      intro before after name requirement failure _ _ isRoom
      exact absurd isRoom (Nat.not_lt_zero _)
  | succ limit limitFails =>
      intro before after name requirement failure consistent isRequired isRoom
      refine limitFails.findOrLoad (buildWithin_sound world limit) consistent ?_
      intro isNew package
      have isLess := room_enter_lt consistent isNew isRequired package
      omega

/-- Building fails because of descriptions and of names without candidates. -/
theorem ofBuilding_of_build
    (consistent : Consistent before)
    (failed : build world before name requirement = (after, .error failure)) :
    failure.OfBuilding := by
  -- the limit below the first name is still more than the room there
  refine (buildWithin_failsBelow world _).findOrLoad (buildWithin_sound world _)
    consistent ?_ failed
  intro isNew package
  have isBounded := room_le world (before.enter name package)
  omega

end Registry
end PackageFlags
