import PackageFlags.Description.Loading
import PackageFlags.Constraint
import PackageFlags.Proofs.Outcome

/-!
# What failures are made of

A failure of building is about one description, about a name without candidates, or
it keeps the failures of all candidates for a name, of which there is at least one.
Reading a description and checking its package fail about that description only.
-/

namespace PackageFlags
namespace Failure

/-- Whether a failure is about one description: that it cannot be read, or that its
package does not meet a requirement. -/
def isOfDescription : Failure -> Bool
  | .malformedJson .. => true
  | .invalidDescription .. => true
  | .unsupportedCpsVersion .. => true
  | .unreadable .. => true
  | .invalidVersion .. => true
  | .unsupportedSchema .. => true
  | .versionTooOld .. => true
  | .noVersion .. => true
  | .missingComponents .. => true
  | _ => false

/-- The failures that building a package ends with. -/
inductive OfBuilding : Failure -> Prop
  /-- A description that cannot be used. -/
  | description
      {failure : Failure}
      (isOf : failure.isOfDescription = true) :
      OfBuilding failure
  /-- A name without candidates. -/
  | notFound (name : String) (searched : List Path) :
      OfBuilding (.packageNotFound name searched)
  /-- A name of which all candidates failed. -/
  | rejected
      (name : String)
      {causes : List Failure}
      (isCause : causes ≠ [])
      (ofBuilding : ∀ cause ∈ causes, OfBuilding cause) :
      OfBuilding (.resolutionFailed name causes)

/-- A failure is another one, or among the failures that the other one keeps, at any
depth. -/
inductive Contains : Failure -> Failure -> Prop
  /-- The failure itself. -/
  | self (failure : Failure) : Contains failure failure
  /-- A failure that a cause contains. -/
  | cause
      {name : String}
      {causes : List Failure}
      {cause part : Failure}
      (isCause : cause ∈ causes)
      (contains : Contains cause part) :
      Contains (.resolutionFailed name causes) part

/-- All parts of a failure of building are failures of building. -/
theorem OfBuilding.part
    {failure part : Failure}
    (ofBuilding : failure.OfBuilding)
    (contains : failure.Contains part) :
    part.OfBuilding := by
  induction contains with
  | self => exact ofBuilding
  | cause isCause _ partOf =>
      cases ofBuilding with
      | description isOf => simp [isOfDescription] at isOf
      | rejected _ _ causesOf => exact partOf (causesOf _ isCause)

/-- Where all candidates failed there was one. -/
theorem OfBuilding.ne_resolutionFailed_nil
    {failure : Failure}
    (ofBuilding : failure.OfBuilding)
    (name : String) :
    failure ≠ .resolutionFailed name [] := by
  rintro rfl
  cases ofBuilding with
  | description isOf => simp [isOfDescription] at isOf
  | rejected _ isCause _ => exact isCause rfl

end Failure

namespace Description

/-- Reading a JSON value fails about the file. -/
theorem Cps.isOfDescription_of_ofValue
    {value : Json.Value}
    {source : Path}
    {failure : Failure}
    (failed : Cps.ofValue value source = .error failure) :
    failure.isOfDescription = true := by
  have located : ∀ {α : Type} {read : Except Flaw α},
      read.mapError (Failure.invalidDescription source.text) = .error failure →
      failure.isOfDescription = true := by
    intro α read isFailure
    obtain ⟨flaw, _, rfl⟩ := Outcome.mapError_eq_error.mp isFailure
    rfl
  unfold Cps.ofValue at failed
  cases isObject : value.members? with
  | none =>
      simp only [isObject] at failed
      exact located failed
  | some members =>
      simp only [isObject, Outcome.bind_eq_error] at failed
      rcases failed with isName | ⟨name, _, isVersion | ⟨cpsVersion, _, isRest⟩⟩
      · exact located isName
      · exact located isVersion
      · split at isRest
        · rw [Outcome.throw_bind, Except.error.injEq] at isRest
          exact isRest ▸ rfl
        · exact located isRest

/-- Reading a file fails about the file. -/
theorem isOfDescription_of_loadFile
    {files : FileSystem}
    {format : Format}
    {path : Path}
    {failure : Failure}
    (failed : loadFile files format path = .error failure) :
    failure.isOfDescription = true := by
  unfold loadFile at failed
  cases isRead : files.read path with
  | error reason =>
      simp only [isRead, Except.error.injEq] at failed
      exact failed ▸ rfl
  | ok text =>
      simp only [isRead] at failed
      cases format with
      | cps =>
          change Cps.load text path = .error failure at failed
          unfold Cps.load at failed
          cases parsed : Json.parse text with
          | none =>
              simp only [parsed, Except.error.injEq] at failed
              exact failed ▸ rfl
          | some value =>
              simp only [parsed] at failed
              exact Cps.isOfDescription_of_ofValue failed
      | pkgConfig =>
          obtain ⟨flaw, _, rfl⟩ := Outcome.mapError_eq_error.mp failed
          rfl

end Description

/-- Comparing versions fails about their descriptions. -/
theorem Version.isOfDescription_of_holds
    {left right : String}
    {operator : Version.Operator}
    {schema : Version.Schema}
    {failure : Failure}
    (failed : Version.holds left operator right schema = .error failure) :
    failure.isOfDescription = true := by
  have invalid : ∀ {text : String}, Version.parse text = .error failure →
      failure.isOfDescription = true := by
    intro text isFailure
    obtain ⟨flaw, _, rfl⟩ := Outcome.mapError_eq_error.mp isFailure
    rfl
  cases schema with
  | simple =>
      rcases Outcome.bind_eq_error.mp failed with isLeft | ⟨_, _, isRest⟩
      · exact invalid isLeft
      · rcases Outcome.bind_eq_error.mp isRest with isRight | ⟨_, _, isDone⟩
        · exact invalid isRight
        · simp [pure, Except.pure] at isDone
  | custom | rpm | dpkg =>
      simp only [Version.holds, Except.error.injEq] at failed
      exact failed ▸ rfl

/-- Checking a package fails about its description. -/
theorem Requirement.isOfDescription_of_check
    {requirement : Requirement}
    {package : Package}
    {failure : Failure}
    (failed : requirement.check package = .error failure) :
    failure.isOfDescription = true := by
  rcases Outcome.bind_eq_error.mp failed with isVersion | ⟨_, _, isComponents⟩
  · unfold checkVersion at isVersion
    split at isVersion
    · contradiction
    · split at isVersion
      · cases isVersion
        rfl
      · rcases Outcome.bind_eq_error.mp isVersion with isCompared | ⟨isOlder, _, isOld⟩
        · exact Version.isOfDescription_of_holds isCompared
        · split at isOld
          · simp only [throw, throwThe, MonadExceptOf.throw,
              Except.error.injEq] at isOld
            unfold tooOld at isOld
            split at isOld <;> exact isOld ▸ rfl
          · simp [pure, Except.pure] at isOld
  · unfold checkComponents at isComponents
    split at isComponents
    · contradiction
    · cases isComponents
      rfl

end PackageFlags
