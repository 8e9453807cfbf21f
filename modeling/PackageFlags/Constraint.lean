import PackageFlags.Package
import PackageFlags.Version.Comparison

/-!
# Checking a package against a requirement

A requirement is met when the effective version of the package is not less than
the one required, if one is required, and every required component is there. The
version is judged first.
-/

namespace PackageFlags
namespace Requirement

/-- What a package that is too old is reported with: its own version with the
oldest one it stands in for, or the latter alone if it has no version. -/
def tooOld
    (package : Package)
    (effective required : String) : Failure :=
  match package.version with
  | some version =>
      .versionTooOld package.source.text version package.compatVersion
        required package.versionSchema.name
  | none =>
      .versionTooOld package.source.text effective none
        required package.versionSchema.name

/-- Whether a package has the version that is required, if one is. -/
def checkVersion
    (requirement : Requirement)
    (package : Package) : Except Failure Unit :=
  match requirement.version with
  | none => .ok ()
  | some required =>
      match package.effectiveVersion with
      | none => .error (.noVersion package.source.text required)
      | some effective => do
          if ← Version.holds effective .less required package.versionSchema then
            throw (tooOld package effective required)

/-- Whether a package has the components that are required. -/
def checkComponents
    (requirement : Requirement)
    (package : Package) : Except Failure Unit :=
  match package.missingComponents requirement.components with
  | [] => .ok ()
  | missing => .error (.missingComponents package.name missing)

/-- Whether a package meets a requirement. -/
def check
    (requirement : Requirement)
    (package : Package) : Except Failure Unit := do
  requirement.checkVersion package
  requirement.checkComponents package

end Requirement
end PackageFlags
