import PackageFlags.Description.Members
import PackageFlags.Failure
import PackageFlags.InstallRoot
import PackageFlags.Json.Reader

/-!
# Descriptions in the Common Package Specification

A description is a JSON object. Its fields are read in a fixed order, which
decides what is reported of a document with several flaws. Components of a kind
that the schema does not know are left out, and only their kind is read.
-/

namespace PackageFlags
namespace Description
namespace Cps

/-- The definitions of a component, from the older of two field names when the
newer is missing. -/
def readDefinitions
    (fields : Members) : Except Flaw (PerLanguage Definition) :=
  if fields.members.contains "definitions" then
    fields.definitions "definitions"
  else
    fields.definitions "defines"

/-- The component of a known kind that an object describes. -/
def readKnownComponent
    (name : String)
    (kind : ComponentKind)
    (fields : Members) : Except Flaw Component := do
  let location ← fields.optionalString "location"
  if kind ≠ .interface ∧ location = none then
    throw (.missingLocation name kind.name)
  let definitions ← readDefinitions fields
  let compileFlags ← fields.perLanguage "compile_flags"
  let includes ← fields.perLanguage "includes"
  let linkFlags ← fields.strings "link_flags"
  let linkLibraries ← fields.strings "link_libraries"
  let linkRequires ← fields.strings "link_requires"
  let linkLocation ← fields.optionalString "link_location"
  let requires ← fields.strings "requires"
  return {
    kind := kind, compileFlags, includes, definitions, linkFlags, linkLibraries,
    linkRequires, location, linkLocation,
    requires := requires.map Reference.parse }

/-- The component that an object describes, none if its kind is unknown. -/
def readComponent
    (name : String)
    (fields : Members) : Except Flaw (Option Component) := do
  let kind := ComponentKind.ofName (← fields.requiredString "type")
  if kind.isKnown then
    return some (← readKnownComponent name kind fields)
  else
    return none

/-- Read each value of a map and keep those that give something. -/
def readEach
    {α β : Type}
    (read : String -> α -> Except Flaw (Option β)) :
    List (String × α) -> Except Flaw (List (String × β))
  | [] => .ok []
  | (name, value) :: rest => do
      match ← read name value with
      | some result => return (name, result) :: (← readEach read rest)
      | none => readEach read rest

/-- The components of a package. There must be one of a known kind. -/
def readComponents
    (document : Members) : Except Flaw (NameMap Component) := do
  let value ← document.required "components"
  let components ← document.asMembers "components" value
  if components.members.isEmpty then
    throw .noComponents
  let known ← readEach
    (fun name value => do
      readComponent name (← components.asMembers name value))
    components.members.entries
  if known.isEmpty then
    throw .noKnownComponents
  return NameMap.ofList known

/-- The requirement that an object describes. -/
def readRequirement (fields : Members) : Except Flaw Requirement := do
  let components ← fields.strings "components"
  let version ← fields.optionalString "version"
  return { components := components, version := version }

/-- The requirements of a package. -/
def readRequires
    (document : Members) : Except Flaw (NameMap Requirement) := do
  match document.members.get? "requires" with
  | none => return NameMap.empty
  | some value =>
      let requires ← document.asMembers "requires" value
      let read ← readEach
        (fun name value => do
          return some (← readRequirement (← requires.asMembers name value)))
        requires.members.entries
      return NameMap.ofList read

/-- The schema that the versions of a package follow. -/
def readSchema (document : Members) : Except Flaw Version.Schema := do
  match ← document.optionalString "version_schema" with
  | some word => (Version.Schema.parse word).mapError Flaw.unrecognized
  | none => return .simple

/-- The installation root of a package: the one that it states, or else the one
that follows from where the description was found. -/
def readRoot (document : Members) (source : Path) : Except Flaw Path := do
  let stated ← document.optionalString "prefix"
  let cpsPath ← document.optionalString "cps_path"
  match stated, cpsPath with
  | some _, some _ => throw .twoRoots
  | some root, none => return ⟨root⟩
  | none, cpsPath => InstallRoot.derive cpsPath source

/-- The name of a package. -/
def readName (document : Members) : Except Flaw String := do
  let name ← document.requiredString "name"
  if name = "" then
    throw .emptyName
  return name

/-- The fields of a package after its name and the version of the format. -/
def readBody
    (document : Members)
    (source : Path)
    (name cpsVersion : String) : Except Flaw Package := do
  let components ← readComponents document
  let versionSchema ← readSchema document
  let root ← readRoot document source
  let compatVersion ← document.optionalString "compat_version"
  let version ← document.optionalString "version"
  let defaultComponents ← document.optionalStrings "default_components"
  let requires ← readRequires document
  return {
    name := name, cpsVersion, components, compatVersion, version, versionSchema,
    defaultComponents, requires, root, source }

/-- The package that a JSON value describes. -/
def ofValue (value : Json.Value) (source : Path) : Except Failure Package := do
  let located {α : Type} (read : Except Flaw α) : Except Failure α :=
    read.mapError (Failure.invalidDescription source.text)
  match value.members? with
  | none => located (throw .notAnObject)
  | some members =>
      let document : Members := { members, place := Members.documentPlace }
      let name ← located (readName document)
      let cpsVersion ← located (document.requiredString "cps_version")
      if cpsVersion ≠ supportedCpsVersion then
        throw (.unsupportedCpsVersion source.text cpsVersion
          supportedCpsVersion)
      located (readBody document source name cpsVersion)

/-- What is reported of a text that is no JSON. -/
def jsonReason : String := "the text is not a JSON value"

/-- The package that the text of a file describes. -/
def load (text : String) (source : Path) : Except Failure Package :=
  match Json.parse text with
  | none => .error (.malformedJson source.text jsonReason)
  | some value => ofValue value source

end Cps
end Description
end PackageFlags
