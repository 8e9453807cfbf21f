import PackageFlags.Flags.Basic
import PackageFlags.InstallRoot
import PackageFlags.Selection.Basic

/-!
# Merging the settings of components

Each selected component contributes its settings, with the installation root in
place of the placeholder. Packages are taken in the order given, and the
components of one package in the order of selection.
-/

namespace PackageFlags

namespace Component

/-- The artifacts that a component is linked with: none for an interface, and
otherwise the one to link or the component itself. -/
def artifacts (component : Component) : Option (List String) :=
  if component.kind = .interface then
    some []
  else
    (component.linkLocation <|> component.location).map fun path => [path]

/-- What a component contributes below an installation root, unless it is an
artifact without a location. -/
def settings? (component : Component) (root : Path) : Option Settings :=
  component.artifacts.map fun artifacts => {
    compileFlags := component.compileFlags
    includes := component.includes.map (InstallRoot.substitute root)
    definitions := component.definitions
    linkFlags := component.linkFlags
    linkLibraries := component.linkLibraries
    linkLocations := artifacts.map (InstallRoot.substitute root) }

end Component

namespace Package

/-- What a component of a package contributes. -/
def settingsOf
    (package : Package)
    (root : Path)
    (name : String) : Except Failure Settings :=
  match package.components.get? name with
  | none => .error (.undefinedComponent package.name name)
  | some component =>
      match component.settings? root with
      | none => .error (.missingLocation package.name name)
      | some settings => .ok settings

end Package

namespace Graph

/-- What the selected components of a node contribute, with a root in place of
the package's own if one is given. -/
def settingsAt
    (graph : Graph)
    (selection : Selection)
    (root : Option Path)
    (id : NodeId) : Except Failure Settings :=
  match graph.package? id with
  | none => .error (.unknownNode id)
  | some package =>
      ((selection.components id).mapM
        (package.settingsOf (root.getD package.root))).map
          Settings.concat

/-- The version of the first node of an order. -/
def versionOf (graph : Graph) (order : List NodeId) : String :=
  match order.head?.bind graph.package? with
  | some package => package.version.getD Flags.unknownVersion
  | none => Flags.unknownVersion

/-- The flags of the selected components, packages taken in order. -/
def aggregate
    (graph : Graph)
    (selection : Selection)
    (order : List NodeId)
    (root : Option Path) : Except Failure Flags :=
  (order.mapM (graph.settingsAt selection root)).map fun parts =>
    { Settings.concat parts with version := graph.versionOf order }

end Graph
end PackageFlags
