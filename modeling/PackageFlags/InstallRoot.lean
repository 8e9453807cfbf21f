import PackageFlags.Description.Flaw
import PackageFlags.Layout
import PackageFlags.Package

/-!
# The installation root of a package

Paths in a description are relative to the root that the package is installed
under. A description that does not state its root has it derived from the
directory it was found in: either the path that the description states for
itself is taken off the end of that directory, or the directories of the usual
layout are. `substitute` puts the root in place of the placeholder.
-/

namespace PackageFlags
namespace InstallRoot

/-- Take a directory off the end of a path if it has that name. -/
def stripDirectory (name : String) (path : Path) : Option Path :=
  if path.fileName? = some name then path.parent? else none

/-- The root of a description found in a directory: a directory for a format is
taken off, then one for libraries or data. -/
def ofDirectory (directory : Path) : Path :=
  let inner :=
    (stripDirectory Format.cps.directory directory
      <|> stripDirectory Format.pkgConfig.directory directory).getD directory
  (stripDirectory Layout.libraries inner
    <|> stripDirectory Layout.data inner).getD inner

/-- Take steps off the end of a directory, the last one first. A step that does
not go down to a name is never at the end of a directory. -/
def stripSteps : List Path.Step -> Path -> Option Path
  | [], directory => some directory
  | .down name :: rest, directory =>
      (stripDirectory name directory).bind (stripSteps rest)
  | _ :: _, _ => none

/-- The root of a description found in a directory that states its own path
below the root. -/
def ofCpsPath
    (cpsPath : String)
    (directory : Path) : Except Description.Flaw Path :=
  match (Path.mk cpsPath).steps with
  | .down first :: below =>
      if first = rootPlaceholder then
        match stripSteps below.reverse directory with
        | some root => .ok root
        | none => .error (.mismatchedPath cpsPath directory.text)
      else
        .error (.unrootedPath cpsPath)
  | _ => .error (.unrootedPath cpsPath)

/-- The root of the description in a file, from the path that it states for
itself if it does. -/
def derive
    (cpsPath : Option String)
    (source : Path) : Except Description.Flaw Path :=
  match cpsPath with
  | some stated => ofCpsPath stated source.directory
  | none => .ok (ofDirectory source.directory)

/-- The path of segments below a root: the segments that are not empty, joined
to the root with single slashes. -/
def below (root : Path) (segments : List String) : Path :=
  match segments.filter (· ≠ "") with
  | [] => root
  | kept => root.join ⟨Text.joinWith "/" kept⟩

/-- Put a root in place of the placeholder when it is the whole first segment.
Any other value stays as it is. -/
def substitute (root : Path) (value : String) : String :=
  match Text.splitOn '/' value with
  | first :: segments =>
      if first = rootPlaceholder then
        (below root segments).text
      else
        value
  | [] => value

end InstallRoot
end PackageFlags
