import PackageFlags.Description.Cps
import PackageFlags.Description.Legacy

/-!
# Loading description files

A description is read in the format that its file is known to have. The names
that any description of a file tree requires are listed by `requiredNames`; every
name that comes up while packages are loaded is among them.
-/

namespace PackageFlags
namespace Description

/-- The package that the text of a file describes in a format. -/
def load (format : Format) (text : String) (source : Path) :
    Except Failure Package :=
  match format with
  | .cps => Cps.load text source
  | .pkgConfig => Legacy.load text source

/-- Read a file and the package that it describes. -/
def loadFile (files : FileSystem) (format : Format) (path : Path) :
    Except Failure Package :=
  match files.read path with
  | .ok text => load format text path
  | .error reason => .error (.unreadable path.text reason)

/-- The names under `requires` in a text, if it is a JSON object. -/
def requiredInCps (text : String) : List String :=
  match (Json.parse text).bind Json.Value.members? with
  | none => []
  | some document =>
      match (document.get? "requires").bind Json.Value.members? with
      | none => []
      | some requires => requires.names

/-- The names in the list of required packages of a text, if it consists of
variables and properties. -/
def requiredInLegacy (text : String) : List String :=
  match Properties.parse text with
  | .error _ => []
  | .ok known =>
      match RequiredPackage.parseList (known.property "Requires") with
      | .error _ => []
      | .ok entries => entries.map RequiredPackage.name

/-- The names that the descriptions in a file tree require, in either format. -/
def requiredNames (files : FileSystem) : List String :=
  files.texts.flatMap fun text => requiredInCps text ++ requiredInLegacy text

end Description
end PackageFlags
