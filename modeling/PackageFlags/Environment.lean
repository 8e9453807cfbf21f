import PackageFlags.Path

/-!
# The search environment

Search directories come from variables that hold lists of paths separated by
colons. A variable that is empty counts as not set; an empty path between two
colons is kept.
-/

namespace PackageFlags

/-- What the environment says about the search for packages. -/
structure Environment where
  /-- Directories with descriptions in the native format. -/
  cpsPath : Option (List Path) := none
  /-- Installation roots to search. -/
  rootPath : Option (List Path) := none
  /-- Directories with descriptions in the format of pkg-config. -/
  legacyPath : Option (List Path) := none
  /-- Whether everything that is done should be logged. -/
  debugSpew : Bool := false
  deriving DecidableEq, Repr

namespace Environment

/-- The variable with native search directories. -/
def cpsPathVariable : String := "CPS_PATH"

/-- The variable with installation roots. -/
def rootPathVariable : String := "CPS_PREFIX_PATH"

/-- The variable with search directories of pkg-config. -/
def legacyPathVariable : String := "PKG_CONFIG_PATH"

/-- The variables that ask for logging, whatever their value. -/
def debugVariables : List String :=
  ["CPS_CONFIG_DEBUG_SPEW", "PKG_CONFIG_DEBUG_SPEW"]

/-- The paths in the value of a variable, unless it is empty. -/
def pathList (value : String) : Option (List Path) :=
  if value = "" then
    none
  else
    some ((Text.splitOn ':' value).map Path.mk)

/-- The environment given by the values of variables. -/
def ofVariables (value? : String -> Option String) : Environment where
  cpsPath := (value? cpsPathVariable).bind pathList
  rootPath := (value? rootPathVariable).bind pathList
  legacyPath := (value? legacyPathVariable).bind pathList
  debugSpew := debugVariables.any fun name => (value? name).isSome

end Environment
end PackageFlags
