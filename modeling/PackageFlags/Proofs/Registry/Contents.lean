import PackageFlags.Proofs.Description.WellFormed
import PackageFlags.Proofs.Registry.Rollback
import PackageFlags.Proofs.Registry.Sessions

/-!
# Where packages come from

Building puts nothing into a registry but packages that files of the world describe,
at nodes of its own, and a rollback only takes some away. After any calls each
package is therefore one that a file described when one of the calls was made.
-/

namespace PackageFlags

/-- Whether a package is what a file of the world describes. -/
def World.Describes (world : World) (package : Package) : Prop :=
  ∃ format path, Description.loadFile world.files format path = .ok package

namespace Registry

variable {world : World} {builder : Builder} {before middle after : Registry}

/-- Whether all packages are those of an earlier registry or described in a world. -/
def FilledFrom (world : World) (before after : Registry) : Prop :=
  ∀ entry ∈ after.graph.packages,
    entry ∈ before.graph.packages ∨ world.Describes entry.2

namespace FilledFrom

theorem refl (world : World) (registry : Registry) :
    FilledFrom world registry registry :=
  fun _ member => Or.inl member

theorem trans
    (first : FilledFrom world before middle)
    (second : FilledFrom world middle after) :
    FilledFrom world before after := by
  intro entry member
  rcases second entry member with isOld | isDescribed
  · exact first entry isOld
  · exact Or.inr isDescribed

theorem enter
    (registry : Registry)
    (name : String)
    {package : Package}
    (isDescribed : world.Describes package) :
    FilledFrom world registry (registry.enter name package) := by
  intro entry member
  rw [graph_enter, Graph.packages_add] at member
  rcases List.mem_append.mp member with isOld | isNew
  · exact Or.inl isOld
  · rw [List.mem_singleton.mp isNew]
    exact Or.inr isDescribed

theorem connect
    (filled : FilledFrom world before after)
    (id : NodeId)
    (children : List (String × NodeId)) :
    FilledFrom world before (after.connect id children) := by
  intro entry member
  rw [packages_connect] at member
  exact filled entry member

theorem rollback
    (filled : FilledFrom world before after)
    (mark : Nat) :
    FilledFrom world before (after.rollback mark) := by
  intro entry member
  unfold Registry.rollback at member
  rw [packages_foldl_evict] at member
  exact filled entry (List.mem_of_mem_filter member)

end FilledFrom

/-- A builder that adds no other packages than those of a world. -/
def Fills (world : World) (builder : Builder) : Prop :=
  ∀ before name requirement,
    FilledFrom world before (builder before name requirement).1

namespace Fills

theorem buildRequired
    (fills : Fills world builder)
    (before : Registry)
    (requirements : List (String × Requirement)) :
    FilledFrom world before
      (Registry.buildRequired builder before requirements).1 := by
  induction requirements generalizing before with
  | nil => exact FilledFrom.refl world before
  | cons first rest restFilled =>
      obtain ⟨name, requirement⟩ := first
      have firstFilled := fills before name requirement
      rw [Registry.buildRequired]
      split <;> rename_i middle _ isFirst <;> rw [isFirst] at firstFilled
      · exact firstFilled
      · have filled := firstFilled.trans (restFilled middle)
        split <;> rename_i isRest <;> rw [isRest] at filled <;> exact filled

theorem addPackage
    (fills : Fills world builder)
    (before : Registry)
    (name : String)
    {package : Package}
    (isDescribed : world.Describes package) :
    FilledFrom world before
      (Registry.addPackage builder before name package).1 := by
  have filled := (FilledFrom.enter before name isDescribed).trans
    (fills.buildRequired (before.enter name package) package.requires.entries)
  unfold Registry.addPackage
  dsimp only
  split <;> rename_i isBuilt <;> rw [isBuilt] at filled
  · exact filled.rollback before.journal.length
  · exact filled.connect before.graph.fresh _

theorem tryCandidate
    (fills : Fills world builder)
    (before : Registry)
    (name : String)
    (requirement : Requirement)
    (candidate : Candidate) :
    FilledFrom world before
      (Registry.tryCandidate world builder before name requirement
        candidate).1 := by
  unfold Registry.tryCandidate
  split
  · exact FilledFrom.refl world before
  · rename_i package isLoaded
    exact fills.addPackage before name
      ⟨candidate.format, candidate.path, (loadCandidate_eq_ok isLoaded).1⟩

theorem tryCandidates
    (fills : Fills world builder)
    (before : Registry)
    (name : String)
    (requirement : Requirement)
    (candidates : List Candidate) :
    FilledFrom world before
      (Registry.tryCandidates world builder before name requirement
        candidates).1 := by
  induction candidates generalizing before with
  | nil => exact FilledFrom.refl world before
  | cons candidate rest restFilled =>
      have firstFilled := fills.tryCandidate before name requirement candidate
      rw [Registry.tryCandidates]
      split <;> rename_i middle _ isFirst <;> rw [isFirst] at firstFilled
      · exact firstFilled
      · have filled := firstFilled.trans (restFilled middle)
        split <;> rename_i isRest <;> rw [isRest] at filled <;> exact filled

theorem findOrLoad (fills : Fills world builder) :
    Fills world (Registry.findOrLoad world builder) := by
  intro before name requirement
  unfold Registry.findOrLoad
  split
  · exact FilledFrom.refl world before
  · unfold loadName
    split
    · exact FilledFrom.refl world before
    · rename_i candidates _
      have filled := fills.tryCandidates before name requirement candidates
      split <;> rename_i isTried <;> rw [isTried] at filled <;> exact filled

end Fills

/-- Building adds the packages of files, however deeply requirements may be
nested. -/
theorem buildWithin_fills (world : World) (limit : Nat) :
    Fills world (buildWithin world limit) := by
  induction limit with
  | zero => exact fun before _ _ => FilledFrom.refl world before
  | succ limit limitFills => exact limitFills.findOrLoad

theorem build_fills (world : World) : Fills world (build world) :=
  buildWithin_fills world (nestingLimit world)

end Registry

namespace Session

/-- After any calls each package is one that a file described for one of them. -/
theorem run_described (calls : List (World × Call)) :
    ∀ entry ∈ (run calls).registry.graph.packages,
      ∃ call ∈ calls, call.1.Describes entry.2 := by
  induction calls using List.reverseRecOn with
  | nil => exact fun _ member => absurd member List.not_mem_nil
  | append_singleton earlier last earlierDescribed =>
      obtain ⟨world, call⟩ := last
      intro entry member
      rw [run_append_singleton] at member
      change entry ∈ (call.serve world (run earlier).registry).graph.packages at member
      rw [call.serve_eq] at member
      rcases Registry.build_fills world (run earlier).registry call.name
        call.requirement entry member with isOld | isDescribed
      · obtain ⟨older, isOlder, wasDescribed⟩ := earlierDescribed entry isOld
        exact ⟨older, List.mem_append_left _ isOlder, wasDescribed⟩
      · exact ⟨(world, call), by simp, isDescribed⟩

/-- After any calls all packages are well-formed. -/
theorem run_wellFormed
    (calls : List (World × Call))
    {id : NodeId}
    {package : Package}
    (isPackage : (run calls).registry.graph.package? id = some package) :
    package.WellFormed := by
  obtain ⟨_, _, _, _, isLoaded⟩ := run_described calls (id, package)
    (Graph.mem_packages_of_package? isPackage)
  exact Description.wellFormed_of_loadFile isLoaded

end Session
end PackageFlags
