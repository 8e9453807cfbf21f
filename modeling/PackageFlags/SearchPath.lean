import PackageFlags.Environment
import PackageFlags.Failure
import PackageFlags.FileSystem
import PackageFlags.Layout

/-!
# Finding candidate files

A search path lists directories with the format of the descriptions they hold:
the native directories of the environment, those below its installation roots,
its directories for pkg-config, and those below the default roots. Every
directory that holds a file for a name gives a candidate, in this order. A name
that is itself the path of a file is its own only candidate.
-/

namespace PackageFlags

/-- A file that may describe a package. -/
structure Candidate where
  /-- The path of the file. -/
  path : Path
  /-- The format that it is read in. -/
  format : Format
  deriving DecidableEq, Repr

/-- Directories with the format of the descriptions in them, in search order. -/
structure SearchPath where
  /-- The directories in order. -/
  directories : List (Path × Format)
  deriving DecidableEq, Repr

namespace SearchPath

/-- The directories for a format below an installation root. -/
def below (root : Path) (format : Format) : List (Path × Format) :=
  (Layout.directories root format).map fun directory => (directory, format)

/-- The search path of an environment, with installation roots that are
searched last. -/
def ofEnvironment
    (environment : Environment)
    (defaultRoots : List Path) : SearchPath where
  directories :=
    ((environment.cpsPath.getD []).map fun directory => (directory, .cps))
      ++ (environment.rootPath.getD []).flatMap (below · .cps)
      ++ ((environment.legacyPath.getD []).map
            fun directory => (directory, .pkgConfig))
      ++ defaultRoots.flatMap
            fun root => below root .cps ++ below root .pkgConfig

/-- The file for a name in a directory of the search path, if there is one. -/
def candidateIn
    (files : FileSystem)
    (name : String)
    (directory : Path)
    (format : Format) : Option Candidate :=
  let path := directory.join ⟨name ++ "." ++ format.extension⟩
  if files.isDirectory directory ∧ files.isFile path then
    some { path := path, format := format }
  else
    none

/-- The files that may describe a package, at least one, in search order. -/
def candidates
    (search : SearchPath)
    (files : FileSystem)
    (name : String) : Except Failure (List Candidate) :=
  let literal : Path := ⟨name⟩
  if files.isFile literal then
    .ok [{ path := literal, format := Format.ofPath literal }]
  else
    match search.directories.filterMap
        fun (directory, format) =>
          candidateIn files name directory format with
    | [] => .error (.packageNotFound name (search.directories.map Prod.fst))
    | found => .ok found

end SearchPath
end PackageFlags
