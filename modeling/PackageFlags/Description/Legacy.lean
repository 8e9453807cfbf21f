import PackageFlags.Description.Properties
import PackageFlags.Description.RequiresList
import PackageFlags.Failure
import PackageFlags.InstallRoot

/-!
# Descriptions of pkg-config as packages

A pkg-config description becomes a package with one component, which is also its
default component. Both are named after the file, so that the package has the
name it is looked up by. Every required package becomes a requirement and a
reference to the default components of that package.
-/

namespace PackageFlags
namespace Description
namespace Legacy

/-- What a compiler flag says. -/
inductive CompilerFlag
  /-- An include directory. -/
  | includeDirectory (directory : String)
  /-- A definition. -/
  | definition (made : Definition)
  /-- Anything else. -/
  | other (flag : String)
  deriving DecidableEq, Repr

namespace CompilerFlag

/-- Read a compiler flag. Exclamation marks in front of a defined symbol are
dropped. -/
def parse (flag : String) : CompilerFlag :=
  match Text.dropStart "-I" flag with
  | some directory => .includeDirectory directory
  | none =>
      match Text.dropStart "-D" flag with
      | some symbol =>
          .definition (Definition.parse
            (String.ofList (symbol.toList.dropWhile (· = '!'))))
      | none =>
          match Text.dropStart "-U" flag with
          | some symbol => .definition { name := symbol, undefine := true }
          | none => .other flag

/-- The directory of a flag that names one. -/
def directory? : CompilerFlag -> Option String
  | .includeDirectory directory => some directory
  | _ => none

/-- The definition of a flag that makes one. -/
def definition? : CompilerFlag -> Option Definition
  | .definition made => some made
  | _ => none

/-- The flag itself if it says neither. -/
def other? : CompilerFlag -> Option String
  | .other flag => some flag
  | _ => none

end CompilerFlag

/-- The library that a linker flag names. -/
def libraryOf? (flag : String) : Option String :=
  Text.dropStart "-l" flag

/-- The least version that a constraint asks for; only a lower bound and an
equality ask for one. -/
def leastVersion : Option (Version.Operator × String) -> Option String
  | some (.greaterOrEqual, version) => some version
  | some (.equal, version) => some version
  | _ => none

/-- The requirements of a list; of several entries with one name the last
counts. -/
def requirements (entries : List RequiredPackage) : NameMap Requirement :=
  NameMap.ofList (entries.map fun entry =>
    (entry.name, { version := leastVersion entry.constraint }))

/-- The references of a list, one for each entry. -/
def references (entries : List RequiredPackage) : List Reference :=
  entries.map fun entry => { package := entry.name, component := none }

/-- The name of the package in a file. -/
def packageName (source : Path) (title : String) : String :=
  match source.fileStem? with
  | some stem => if stem = "" then title else stem
  | none => title

/-- The component that the properties of a package describe. -/
def component
    (known : Properties)
    (name : String)
    (entries : List RequiredPackage) : Component :=
  let compilerFlags :=
    (Text.words (known.property "Cflags")).map CompilerFlag.parse
  let linkerFlags := Text.words (known.property "Libs")
  { kind := .interface
    compileFlags := PerLanguage.constantUnlessEmpty
      (compilerFlags.filterMap CompilerFlag.other?)
    includes := PerLanguage.constantUnlessEmpty
      (compilerFlags.filterMap CompilerFlag.directory?)
    definitions := PerLanguage.constantUnlessEmpty
      (compilerFlags.filterMap CompilerFlag.definition?)
    linkFlags := linkerFlags.filter fun flag => (libraryOf? flag).isNone
    linkLibraries := linkerFlags.filterMap libraryOf?
    location := some (rootPlaceholder ++ "/lib/" ++ name ++ ".a")
    requires := references entries }

/-- The package that variables and properties describe. -/
def ofProperties
    (known : Properties)
    (source : Path) : Except Flaw Package := do
  match known.properties.get? "Name" with
  | none => throw (.missingProperty "Name")
  | some title =>
      let name := packageName source title
      let entries ← RequiredPackage.parseList (known.property "Requires")
      let root :=
        match known.valueOf? "prefix" with
        | some stated => Path.mk stated
        | none => InstallRoot.ofDirectory source.directory
      return {
        name
        cpsVersion := supportedCpsVersion
        components :=
          NameMap.empty.insert name (component known name entries)
        compatVersion := none
        version := known.properties.get? "Version"
        versionSchema := .simple
        defaultComponents := some [name]
        requires := requirements entries
        root
        source }

/-- The package that the text of a file describes. -/
def load (text : String) (source : Path) : Except Failure Package :=
  (do ofProperties (← Properties.parse text) source : Except Flaw Package)
    |>.mapError (Failure.invalidDescription source.text)

end Legacy
end Description
end PackageFlags
