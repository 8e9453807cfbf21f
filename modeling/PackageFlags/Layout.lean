import PackageFlags.Path

/-!
# The layout of an installation

Package descriptions come in two formats. Below an installation root they stand
in a directory for their format, inside the directory for libraries or the one
for data.
-/

namespace PackageFlags

/-- The formats of package descriptions. -/
inductive Format
  /-- The Common Package Specification, written in JSON. -/
  | cps
  /-- The variables and properties of pkg-config. -/
  | pkgConfig
  deriving DecidableEq, Repr

namespace Format

/-- The extension of files in a format. -/
def extension : Format -> String
  | .cps => "cps"
  | .pkgConfig => "pc"

/-- The directory that holds files in a format. -/
def directory : Format -> String
  | .cps => "cps"
  | .pkgConfig => "pkgconfig"

/-- The name of a format. -/
def title : Format -> String
  | .cps => "CPS"
  | .pkgConfig => "pkg-config"

/-- The format that a file is read in when it is named outright. -/
def ofPath (path : Path) : Format :=
  if path.extension? = some Format.pkgConfig.extension then
    .pkgConfig
  else
    .cps

end Format

namespace Layout

/-- The directory for libraries below an installation root. -/
def libraries : String := "lib"

/-- The directory for data below an installation root. -/
def data : String := "share"

/-- The installation roots that are searched last. -/
def defaultRoots : List Path := [⟨"/usr"⟩, ⟨"/usr/local"⟩]

/-- The directories for descriptions in a format below an installation root. -/
def directories (root : Path) (format : Format) : List Path :=
  [libraries, data].map fun part =>
    (root.join ⟨part⟩).join ⟨format.directory⟩

end Layout
end PackageFlags
