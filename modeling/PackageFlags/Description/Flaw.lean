import PackageFlags.Unrecognized
import PackageFlags.Version.Operator

/-!
# What can be wrong with a package description

One constructor per rule that a description can break, with what the report of
it names. The wording is in `message` alone.
-/

namespace PackageFlags
namespace Description

/-- What a field should have been. -/
inductive Shape
  | string
  | array
  | stringArray
  | object
  deriving DecidableEq, Repr

/-- A shape in words. -/
def Shape.words : Shape -> String
  | .string => "a string"
  | .array => "an array"
  | .stringArray => "an array of strings"
  | .object => "an object"

/-- A rule that a package description breaks. -/
inductive Flaw
  /-- The document is no object. -/
  | notAnObject
  /-- An object lacks a field. -/
  | missingField (field parent : String)
  /-- A field has the wrong shape. -/
  | wrongShape (field parent : String) (expected : Shape)
  /-- A field with settings per language has neither of its two shapes. -/
  | notPerLanguage (field parent : String)
  /-- The name of the package is empty. -/
  | emptyName
  /-- There are no components. -/
  | noComponents
  /-- There are components, but none of a known kind. -/
  | noKnownComponents
  /-- A component that is an artifact has no location. -/
  | missingLocation (component kind : String)
  /-- A word is outside its vocabulary. -/
  | unrecognized (word : Unrecognized)
  /-- The installation root is given in two ways. -/
  | twoRoots
  /-- The path of the description does not start at the installation root. -/
  | unrootedPath (cpsPath : String)
  /-- The path of the description is not the end of where it was found. -/
  | mismatchedPath (cpsPath directory : String)
  /-- A line is neither a variable nor a property. -/
  | malformedLine (number : Nat)
  /-- A variable is used that no earlier line defines. -/
  | undefinedVariable (name : String)
  /-- A property that must be there is missing. -/
  | missingProperty (name : String)
  /-- An operator has no package in front of it. -/
  | operatorWithoutPackage (operator : String)
  /-- A package is followed by a sign that is no operator. -/
  | unknownOperator (package operator : String)
  /-- An operator has no version after it. -/
  | operatorWithoutVersion (package : String) (operator : Version.Operator)
  /-- A reason given in words. -/
  | stated (reason : String)
  deriving DecidableEq, Repr

namespace Flaw

/-- A name between grave accents. -/
def quoted (name : String) : String :=
  "`" ++ name ++ "`"

/-- The report of a flaw. -/
def message : Flaw -> String
  | .notAnObject => "the top level is not an object"
  | .missingField field parent =>
      "Required field " ++ quoted field ++ " in " ++ quoted parent ++
        " is missing"
  | .wrongShape field parent expected =>
      "Field " ++ quoted field ++ " in " ++ quoted parent ++ " is not " ++
        expected.words
  | .notPerLanguage field parent =>
      "Field " ++ quoted field ++ " in " ++ quoted parent ++
        " is neither an object nor an array"
  | .emptyName => "`name` must not be empty"
  | .noComponents =>
      "`components` of `package` is empty, but must have at least one "
        ++ "component"
  | .noKnownComponents => "`package` has no components of a known type"
  | .missingLocation component kind =>
      "component " ++ quoted component ++ " of type " ++ quoted kind ++
        " is missing required key `location`"
  | .unrecognized word => word.message
  | .twoRoots => "`prefix` and `cps_path` are mutually exclusive"
  | .unrootedPath cpsPath =>
      "cps_path " ++ quoted cpsPath ++ " does not start with `@prefix@`"
  | .mismatchedPath cpsPath directory =>
      "cps_path " ++ quoted cpsPath ++ " does not match the directory " ++
        quoted directory ++ " the file was found in"
  | .malformedLine number =>
      "line " ++ Nat.repr number ++ " is not a variable or property"
  | .undefinedVariable name =>
      "variable " ++ quoted name ++ " is not defined"
  | .missingProperty name =>
      "Required property " ++ quoted name ++ " is missing"
  | .operatorWithoutPackage operator =>
      "requirement operator " ++ quoted operator ++ " has no package name"
  | .unknownOperator package operator =>
      "requirement " ++ quoted package ++ " has unknown operator " ++
        quoted operator
  | .operatorWithoutVersion package operator =>
      "requirement " ++ quoted (package ++ " " ++ operator.symbol) ++
        " has no version"
  | .stated reason => reason

end Flaw
end Description
end PackageFlags
