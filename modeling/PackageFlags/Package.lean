import PackageFlags.Language
import PackageFlags.NameMap
import PackageFlags.Path
import PackageFlags.Version.Operator

/-!
# Packages and their components

A package description names a set of components, what the package requires of
other packages, its version, and the installation root that its paths are
relative to. A component carries flags and refers to other components, of the
same package or of a required one.
-/

namespace PackageFlags

/-- A symbol that the preprocessor defines or undefines. -/
structure Definition where
  /-- The symbol. -/
  name : String
  /-- The value it is defined as; a plain definition has none. -/
  value : Option String := none
  /-- Whether the symbol is undefined instead. -/
  undefine : Bool := false
  deriving DecidableEq, Repr

namespace Definition

/-- Read `NAME`, `NAME=VALUE` or `!NAME`. -/
def parse (text : String) : Definition :=
  match Text.dropStart "!" text with
  | some name => { name, undefine := true }
  | none =>
      match Text.splitOnce '=' text with
      | some (name, value) => { name, value := some value }
      | none => { name := text }

end Definition

/-- A reference from a component to what it needs. Without a package it stays in
the same package; without a component it means the default components. -/
structure Reference where
  /-- The dependency, empty for the same package. -/
  package : String
  /-- The component, if one is named. -/
  component : Option String
  deriving DecidableEq, Repr

namespace Reference

/-- Read `PACKAGE`, `PACKAGE:COMPONENT` or `:COMPONENT`. Every text is a
reference. -/
def parse (text : String) : Reference :=
  match Text.splitOnce ':' text with
  | some (package, "") => { package, component := none }
  | some (package, component) => { package, component := some component }
  | none => { package := text, component := none }

/-- Whether a reference stays in the package that makes it. -/
def isInternal (reference : Reference) : Bool :=
  reference.package = ""

/-- The written form of a reference. -/
def text (reference : Reference) : String :=
  match reference.component with
  | some component => reference.package ++ ":" ++ component
  | none => reference.package

end Reference

/-- What a component is. -/
inductive ComponentKind
  /-- A program. -/
  | executable
  /-- A static library. -/
  | archive
  /-- A shared library. -/
  | dylib
  /-- A module loaded at run time. -/
  | module
  /-- A Java archive. -/
  | jar
  /-- Headers and flags alone, without an artifact. -/
  | interface
  /-- A name for a group of other components. -/
  | symbolic
  /-- A kind outside the schema. -/
  | other (name : String)
  deriving DecidableEq, Repr

namespace ComponentKind

/-- The kind that a word names. -/
def ofName : String -> ComponentKind
  | "executable" => .executable
  | "archive" => .archive
  | "dylib" => .dylib
  | "module" => .module
  | "jar" => .jar
  | "interface" => .interface
  | "symbolic" => .symbolic
  | name => .other name

/-- The word for a kind. -/
def name : ComponentKind -> String
  | .executable => "executable"
  | .archive => "archive"
  | .dylib => "dylib"
  | .module => "module"
  | .jar => "jar"
  | .interface => "interface"
  | .symbolic => "symbolic"
  | .other name => name

/-- Whether the schema knows a kind. -/
def isKnown : ComponentKind -> Bool
  | .other _ => false
  | _ => true

end ComponentKind

/-- A part of a package that can be used on its own. -/
structure Component where
  /-- What the component is. -/
  kind : ComponentKind
  /-- Compiler flags. -/
  compileFlags : PerLanguage String := {}
  /-- Include directories; they may start with the root placeholder. -/
  includes : PerLanguage String := {}
  /-- Preprocessor definitions. -/
  definitions : PerLanguage Definition := {}
  /-- Flags for the linker. -/
  linkFlags : List String := []
  /-- Libraries linked by name. -/
  linkLibraries : List String := []
  /-- Components needed at link time alone. -/
  linkRequires : List String := []
  /-- The artifact; it may start with the root placeholder. -/
  location : Option String := none
  /-- The artifact to link when it is another one. -/
  linkLocation : Option String := none
  /-- The components that this one needs. -/
  requires : List Reference := []
  deriving DecidableEq

/-- What a package asks of one of its dependencies. -/
structure Requirement where
  /-- The components that must be there. -/
  components : List String := []
  /-- The least version that will do. -/
  version : Option String := none
  deriving DecidableEq, Repr

/-- A package description. -/
structure Package where
  /-- The name of the package. -/
  name : String
  /-- The version of the description format. -/
  cpsVersion : String
  /-- The components by name. -/
  components : NameMap Component
  /-- The oldest version that the package can stand in for. -/
  compatVersion : Option String
  /-- The version of the package. -/
  version : Option String
  /-- How its versions compare. -/
  versionSchema : Version.Schema
  /-- The components used when none are named. -/
  defaultComponents : Option (List String)
  /-- The dependencies by name. -/
  requires : NameMap Requirement
  /-- The installation root. -/
  root : Path
  /-- The file that the description was read from. -/
  source : Path
  deriving DecidableEq

namespace Package

/-- The version that requirements are checked against: the oldest one that the
package can stand in for, or else its own. -/
def effectiveVersion (package : Package) : Option String :=
  package.compatVersion <|> package.version

/-- The names in a list that are no components of the package. -/
def missingComponents
    (package : Package)
    (wanted : List String) : List String :=
  wanted.filter fun name => !package.components.contains name

/-- The default components, none if the package declares none. -/
def defaults (package : Package) : List String :=
  package.defaultComponents.getD []

end Package

/-- The only version of the description format that is read. -/
def supportedCpsVersion : String := "0.10.0"

/-- The first segment of a path that stands for the installation root. -/
def rootPlaceholder : String := "@prefix@"

end PackageFlags
