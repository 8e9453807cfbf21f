import PackageFlags.Constraint
import PackageFlags.Proofs.Version.Verdicts

/-!
# Packages that meet a requirement

A package of the simple schema meets a requirement exactly if it reaches the version
that is required, if one is, and no required component is missing.
-/

namespace PackageFlags

namespace Package

variable {package : Package}

/-- The effective version of a package is no less than some version. -/
def Reaches (package : Package) (version : String) : Prop :=
  ∃ effective left right, package.effectiveVersion = some effective
    ∧ Version.parse effective = .ok left ∧ Version.parse version = .ok right
    ∧ left.order right ≠ .lt

/-- What reaches a version reaches all that are no greater. -/
theorem Reaches.of_order
    {greater less : String}
    {left right : Version.Simple}
    (reaches : package.Reaches greater)
    (isLeft : Version.parse greater = .ok left)
    (isRight : Version.parse less = .ok right)
    (notLess : left.order right ≠ .lt) :
    package.Reaches less := by
  obtain ⟨effective, own, other, isEffective, isOwn, isOther, isGreater⟩ := reaches
  cases isLeft.symm.trans isOther
  exact ⟨effective, own, right, isEffective, isOwn, isRight,
    Version.Simple.order_ne_lt_trans isGreater notLess⟩

end Package

namespace Requirement

variable {requirement : Requirement} {package : Package}

/-- The version of a package is accepted exactly if it reaches the one that is
required, if one is. -/
theorem checkVersion_eq_ok_iff (isSimple : package.versionSchema = .simple) :
    requirement.checkVersion package = .ok () ↔
      ∀ version, requirement.version = some version → package.Reaches version := by
  unfold checkVersion
  cases isRequired : requirement.version with
  | none => simp
  | some required =>
      cases isEffective : package.effectiveVersion with
      | none =>
          refine ⟨nofun, fun all => ?_⟩
          obtain ⟨effective, _, _, isOther, _⟩ := all required rfl
          rw [isEffective] at isOther
          contradiction
      | some effective =>
          simp only [isSimple, Version.holds]
          constructor
          · rintro isAccepted version ⟨⟩
            obtain ⟨isLess, isCompared, isRest⟩ := Outcome.bind_eq_ok.mp isAccepted
            obtain ⟨own, other, isOwn, isOther, isOrder⟩ :=
              Version.holdsSimple_eq_ok_iff.mp isCompared
            refine ⟨effective, own, other, isEffective, isOwn, isOther, ?_⟩
            intro isOlder
            rw [← isOrder, isOlder] at isRest
            contradiction
          · intro all
            obtain ⟨same, own, other, isSame, isOwn, isOther, notLess⟩ :=
              all required rfl
            cases isEffective.symm.trans isSame
            have isCompared : Version.holdsSimple effective .less required =
                .ok false :=
              Version.holdsSimple_eq_ok_iff.mpr
                ⟨own, other, isOwn, isOther, beq_eq_false_iff_ne.mpr notLess⟩
            rw [isCompared]
            rfl

/-- Only versions of the simple schema are accepted. -/
theorem isSimple_of_checkVersion
    (isAccepted : requirement.checkVersion package = .ok ())
    {required : String}
    (isRequired : requirement.version = some required) :
    package.versionSchema = .simple := by
  unfold checkVersion at isAccepted
  rw [isRequired] at isAccepted
  cases isEffective : package.effectiveVersion with
  | none => simp [isEffective] at isAccepted
  | some effective =>
      simp only [isEffective] at isAccepted
      obtain ⟨isLess, isCompared, _⟩ := Outcome.bind_eq_ok.mp isAccepted
      cases isSchema : package.versionSchema with
      | simple => rfl
      | custom | rpm | dpkg => simp [isSchema, Version.holds] at isCompared

/-- A package meets a requirement exactly if its version is accepted and no required
component is missing. -/
theorem check_eq_ok :
    requirement.check package = .ok () ↔
      requirement.checkVersion package = .ok ()
        ∧ package.missingComponents requirement.components = [] := by
  unfold check
  rw [Outcome.bind_eq_ok]
  unfold checkComponents
  constructor
  · rintro ⟨_, isVersion, isComponents⟩
    refine ⟨isVersion, ?_⟩
    split at isComponents
    · assumption
    · contradiction
  · rintro ⟨isVersion, noneMissing⟩
    exact ⟨(), isVersion, by rw [noneMissing]⟩

/-- A package meets a requirement exactly if it reaches the version that is required,
if one is, and has the components that are. -/
theorem check_eq_ok_iff (isSimple : package.versionSchema = .simple) :
    requirement.check package = .ok () ↔
      (∀ version, requirement.version = some version → package.Reaches version)
        ∧ package.missingComponents requirement.components = [] := by
  rw [check_eq_ok, checkVersion_eq_ok_iff isSimple]

end Requirement
end PackageFlags
