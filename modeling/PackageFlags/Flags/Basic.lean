import PackageFlags.Package

/-!
# Flags

What a build needs to use a package: flags for the compiler and the linker,
gathered from components in dependency order. Settings are put after each other
field by field.
-/

namespace PackageFlags

/-- Settings for the compiler and the linker. -/
structure Settings where
  /-- Compiler flags. -/
  compileFlags : PerLanguage String := {}
  /-- Include directories. -/
  includes : PerLanguage String := {}
  /-- Preprocessor definitions. -/
  definitions : PerLanguage Definition := {}
  /-- Flags for the linker. -/
  linkFlags : List String := []
  /-- Libraries linked by name. -/
  linkLibraries : List String := []
  /-- Artifacts to link. -/
  linkLocations : List String := []
  deriving DecidableEq, Repr

namespace Settings

/-- No settings. -/
def empty : Settings := {}

/-- The settings of the second after those of the first. -/
def append (left right : Settings) : Settings where
  compileFlags := left.compileFlags.append right.compileFlags
  includes := left.includes.append right.includes
  definitions := left.definitions.append right.definitions
  linkFlags := left.linkFlags ++ right.linkFlags
  linkLibraries := left.linkLibraries ++ right.linkLibraries
  linkLocations := left.linkLocations ++ right.linkLocations

/-- Settings one after another. -/
def concat (parts : List Settings) : Settings :=
  parts.foldr append empty

@[simp] theorem concat_nil : concat [] = empty := rfl

@[simp] theorem concat_cons
    (first : Settings)
    (rest : List Settings) :
    concat (first :: rest) = first.append (concat rest) := rfl

theorem concat_singleton (settings : Settings) :
    concat [settings] = settings := by
  simp [append, empty]

end Settings

/-- The settings to use a package with, and its version. -/
structure Flags extends Settings where
  /-- The version of the package. -/
  version : String := ""
  deriving DecidableEq, Repr

namespace Flags

/-- The version of a package that states none. -/
def unknownVersion : String := "unknown"

end Flags
end PackageFlags
