import PackageFlags.Proofs.Description.Required
import PackageFlags.Proofs.Registry.Builders
import PackageFlags.Remaining

/-!
# The nesting limit is never reached

A name that is loaded below another one is a name that some description requires,
and it is not in the registry yet. Each level of nesting therefore uses up one of
these names, and the limit is larger than their number. So the limit only makes
the recursion structural: building a name is finding it, or loading it with its
requirements built in the same way.
-/

namespace PackageFlags
namespace Registry

/-- How many of the names that descriptions require are not in the registry. -/
def room (world : World) (registry : Registry) : Nat :=
  remaining (fun _ => 0) (Description.requiredNames world.files) registry.journal

variable {world : World} {before after : Registry}

/-- There is room for the required names at most. -/
theorem room_le (world : World) (registry : Registry) :
    room world registry ≤ (Description.requiredNames world.files).length := by
  unfold room
  induction Description.requiredNames world.files with
  | nil => exact Nat.le_refl 0
  | cons first rest restLe =>
      rw [remaining_cons, List.length_cons]
      split <;> omega

/-- A registry that grows leaves no more room. -/
theorem room_mono (grows : Extends before after) :
    room world after ≤ room world before :=
  remaining_le _ grows.journal.subset

/-- A required name that is entered takes up room. -/
theorem room_enter_lt
    (consistent : Consistent before)
    {name : String}
    (isNew : before.find? name = none)
    (isRequired : name ∈ Description.requiredNames world.files)
    (package : Package) :
    room world (before.enter name package) < room world before := by
  have notListed : name ∉ before.journal := fun member =>
    consistent.ne_of_mem_journal isNew member rfl
  have fewer := remaining_add_cost_le (fun _ => 0)
    (List.subset_append_left before.journal [name]) isRequired notListed
    (List.mem_append_right _ (List.mem_singleton_self name))
  unfold room
  rw [journal_enter]
  omega

/-! ## Builders that agree -/

section Congruence

variable {left right : Builder} {name : String} {requirement : Requirement}

/-- Requirements are built in the same way by builders that agree on each of them,
in the registry that it is built in. -/
theorem buildRequired_congr
    {requirements : List (String × Requirement)}
    (agree : ∀ earlier name requirement later middle children,
      requirements = earlier ++ (name, requirement) :: later →
      buildRequired left before earlier = (middle, .ok children) →
      left middle name requirement = right middle name requirement) :
    buildRequired left before requirements =
      buildRequired right before requirements := by
  induction requirements generalizing before with
  | nil => rfl
  | cons first rest restSame =>
      obtain ⟨name, requirement⟩ := first
      rw [buildRequired, buildRequired,
        ← agree [] name requirement rest before [] rfl rfl]
      cases isFirst : left before name requirement with
      | mk middle outcome =>
          cases outcome with
          | error failure => rfl
          | ok child =>
              have laterSame : buildRequired left middle rest =
                  buildRequired right middle rest := by
                refine restSame fun earlier other required later after children
                  isSplit areBuilt => ?_
                refine agree ((name, requirement) :: earlier) other required later
                  after ((name, child) :: children) (by rw [isSplit]; rfl) ?_
                simp only [buildRequired, isFirst, areBuilt]
              simp only [laterSame]

theorem addPackage_congr
    {package : Package}
    (agree : ∀ earlier dependency required later middle children,
      package.requires.entries = earlier ++ (dependency, required) :: later →
      buildRequired left (before.enter name package) earlier =
        (middle, .ok children) →
      left middle dependency required = right middle dependency required) :
    addPackage left before name package = addPackage right before name package := by
  unfold addPackage
  simp only [buildRequired_congr agree]

theorem tryCandidate_congr
    {candidate : Candidate}
    (agree : ∀ package, loadCandidate world requirement candidate = .ok package →
      addPackage left before name package = addPackage right before name package) :
    tryCandidate world left before name requirement candidate =
      tryCandidate world right before name requirement candidate := by
  unfold tryCandidate
  cases isLoaded : loadCandidate world requirement candidate with
  | error failure => rfl
  | ok package => exact agree package isLoaded

/-- Candidates come to the same for builders that agree on each of them, in the
registry that it is tried in. -/
theorem tryCandidates_congr
    {candidates : List Candidate}
    (agree : ∀ tried candidate untried middle failures,
      candidates = tried ++ candidate :: untried →
      tryCandidates world left before name requirement tried =
        (middle, .error failures) →
      tryCandidate world left middle name requirement candidate =
        tryCandidate world right middle name requirement candidate) :
    tryCandidates world left before name requirement candidates =
      tryCandidates world right before name requirement candidates := by
  induction candidates generalizing before with
  | nil => rfl
  | cons first rest restSame =>
      rw [tryCandidates, tryCandidates, ← agree [] first rest before [] rfl rfl]
      cases isFirst : tryCandidate world left before name requirement first with
      | mk middle outcome =>
          cases outcome with
          | ok id => rfl
          | error failure =>
              have laterSame : tryCandidates world left middle name requirement rest =
                  tryCandidates world right middle name requirement rest := by
                refine restSame fun tried candidate untried after failures isSplit
                  haveFailed => ?_
                refine agree (first :: tried) candidate untried after
                  (failure :: failures) (by rw [isSplit]; rfl) ?_
                simp only [tryCandidates, isFirst, haveFailed]
              simp only [laterSame]

end Congruence

/-- Two builders do the same on consistent registries with less room than a
bound, for names that descriptions require. -/
def AgreeBelow (world : World) (bound : Nat) (left right : Builder) : Prop :=
  ∀ registry name requirement, Consistent registry →
    name ∈ Description.requiredNames world.files → room world registry < bound →
    left registry name requirement = right registry name requirement

namespace AgreeBelow

variable {bound : Nat} {left right : Builder}

theorem addPackage_eq
    (agree : AgreeBelow world bound left right)
    (sound : Sound left)
    (consistent : Consistent before)
    {name : String}
    {package : Package}
    (isNew : before.find? name = none)
    (areRequired : ∀ required ∈ package.requires.names,
      required ∈ Description.requiredNames world.files)
    (isRoom : room world (before.enter name package) < bound) :
    addPackage left before name package = addPackage right before name package := by
  refine addPackage_congr fun earlier dependency required later middle children
    isSplit areBuilt => ?_
  have found := sound.foundAll (consistent.enter isNew package) areBuilt
  have isRequired : dependency ∈ package.requires.names := by
    simp [NameMap.names, isSplit]
  exact agree middle dependency required found.consistent
    (areRequired dependency isRequired)
    (Nat.lt_of_le_of_lt (room_mono found.grows) isRoom)

theorem tryCandidates_eq
    (agree : AgreeBelow world bound left right)
    (sound : Sound left)
    (consistent : Consistent before)
    {name : String}
    (isNew : before.find? name = none)
    (isRoom : ∀ package, room world (before.enter name package) < bound)
    (requirement : Requirement)
    (candidates : List Candidate) :
    tryCandidates world left before name requirement candidates =
      tryCandidates world right before name requirement candidates := by
  refine tryCandidates_congr fun tried candidate untried middle failures _
    haveFailed => ?_
  rw [sound.tryCandidates_error consistent isNew haveFailed]
  refine tryCandidate_congr fun package isLoaded => ?_
  exact agree.addPackage_eq sound consistent isNew
    (Description.mem_requiredNames_of_loadFile (loadCandidate_eq_ok isLoaded).1)
    (isRoom package)

/-- Finding or loading a name is the same when its requirements are built by
builders that agree. -/
theorem findOrLoad_eq
    (agree : AgreeBelow world bound left right)
    (sound : Sound left)
    (consistent : Consistent before)
    {name : String}
    (isRoom : before.find? name = none →
      ∀ package, room world (before.enter name package) < bound)
    (requirement : Requirement) :
    findOrLoad world left before name requirement =
      findOrLoad world right before name requirement := by
  unfold findOrLoad
  cases isCached : before.find? name with
  | some id => rfl
  | none =>
      unfold loadName
      simp only [agree.tryCandidates_eq sound consistent isCached (isRoom isCached)]

end AgreeBelow

/-- Limits make no difference where there is less room. -/
theorem buildWithin_agreeBelow
    (world : World)
    (limit : Nat) :
    AgreeBelow world limit (buildWithin world limit)
      (buildWithin world (limit + 1)) := by
  induction limit with
  | zero =>
      intro registry name requirement _ _ isRoom
      exact absurd isRoom (Nat.not_lt_zero _)
  | succ limit limitAgree =>
      intro registry name requirement consistent isRequired isRoom
      refine limitAgree.findOrLoad_eq (buildWithin_sound world limit) consistent
        ?_ requirement
      intro isNew package
      have isLess := room_enter_lt consistent isNew isRequired package
      omega

/-- Building a name is finding it, or loading it with its requirements built in
the same way. -/
theorem build_eq_findOrLoad
    (consistent : Consistent before)
    (name : String)
    (requirement : Requirement) :
    build world before name requirement =
      findOrLoad world (build world) before name requirement := by
  -- the limit below the first name is one less, and still more than the room
  refine (buildWithin_agreeBelow world _).findOrLoad_eq
    (buildWithin_sound world _) consistent ?_ requirement
  intro isNew package
  have isBounded := room_le world (before.enter name package)
  omega

end Registry
end PackageFlags
