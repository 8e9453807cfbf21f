import PackageFlags.Description.Flaw
import PackageFlags.FileSystem
import PackageFlags.Version.Simple

/-!
# Failures

Whatever can go wrong between the name of a package and its flags is one
constructor of `Failure`. A package for which every candidate file failed keeps
the failures of all candidates, so that a failure is a tree. Its text is the
outline of that tree: every level is indented by two blanks.
-/

namespace PackageFlags

/-- Why a package could not be turned into flags. -/
inductive Failure
  /-- A file is not JSON. -/
  | malformedJson (file reason : String)
  /-- A file breaks a rule for package descriptions. -/
  | invalidDescription (file : String) (flaw : Description.Flaw)
  /-- A description is written for another version of the format. -/
  | unsupportedCpsVersion (file found supported : String)
  /-- There is no file for a package on the search path. -/
  | packageNotFound (name : String) (searched : List Path)
  /-- A version is malformed. -/
  | invalidVersion (version : String) (flaw : Version.Flaw)
  /-- Versions of this schema cannot be compared. -/
  | unsupportedSchema (schema : String)
  /-- A package is older than required. -/
  | versionTooOld
      (file found : String)
      (compatVersion : Option String)
      (required schema : String)
  /-- A version is required of a package that states none. -/
  | noVersion (file required : String)
  /-- A package does not have the components asked for. -/
  | missingComponents (package : String) (components : List String)
  /-- Every candidate for a package failed. -/
  | resolutionFailed (name : String) (causes : List Failure)
  /-- A component that is an artifact has no location. -/
  | missingLocation (package component : String)
  /-- A file could not be read. -/
  | unreadable (file : String) (reason : ReadFailure)
  /-- Requirements are nested deeper than the caller allowed. -/
  | nestedTooDeeply (name : String)
  /-- A node is not in the package graph. -/
  | unknownNode (node : Nat)
  /-- A component is selected that its package does not have. -/
  | undefinedComponent (package component : String)
  deriving Inhabited

/-- The coarse classes of failures. -/
inductive FailureKind
  /-- A malformed description. -/
  | schema
  /-- No candidate file. -/
  | notFound
  /-- A version or a component that is not as required. -/
  | constraint
  /-- No candidate that works. -/
  | resolution
  /-- The file system. -/
  | io
  /-- A package graph that does not fit what is asked of it. -/
  | graph
  deriving DecidableEq, Repr

namespace Failure

/-- The class of a failure. -/
def kind : Failure -> FailureKind
  | .malformedJson .. => .schema
  | .invalidDescription .. => .schema
  | .unsupportedCpsVersion .. => .schema
  | .missingLocation .. => .schema
  | .packageNotFound .. => .notFound
  | .invalidVersion .. => .constraint
  | .unsupportedSchema .. => .constraint
  | .versionTooOld .. => .constraint
  | .noVersion .. => .constraint
  | .missingComponents .. => .constraint
  | .resolutionFailed .. => .resolution
  | .unreadable .. => .io
  | .nestedTooDeeply .. => .graph
  | .unknownNode .. => .graph
  | .undefinedComponent .. => .graph

/-- A text with two blanks after every line end. -/
def indent (text : String) : String :=
  String.ofList (text.toList.flatMap fun c =>
    if c = '\n' then ['\n', ' ', ' '] else [c])

mutual

/-- The report of a failure. -/
def message : Failure -> String
  | .malformedJson file reason =>
      "Failed to parse JSON in `" ++ file ++ "`: " ++ reason
  | .invalidDescription file flaw =>
      "Invalid package description `" ++ file ++ "`: " ++ flaw.message
  | .unsupportedCpsVersion file found supported =>
      "cps-config only supports CPS version `" ++ supported ++
        "`, found `" ++ found ++ "` in `" ++ file ++ "`"
  | .packageNotFound name _ =>
      "Could not find a CPS file for `" ++ name ++ "`"
  | .invalidVersion version flaw =>
      "Invalid version `" ++ version ++ "`: " ++ flaw.message
  | .unsupportedSchema schema =>
      "The `" ++ schema ++ "` version schema is not implemented"
  | .versionTooOld file found compatVersion required schema =>
      "`" ++ file ++ "` has a version of " ++ found ++
        (match compatVersion with
          | some compat => " (compatible back to " ++ compat ++ ")"
          | none => "") ++
        ", which is less than the required " ++ required ++
        ", using the schema " ++ schema
  | .noVersion file required =>
      "`" ++ file ++ "` does not specify a version, but version " ++
        required ++ " is required"
  | .missingComponents package components =>
      "`" ++ package ++ "` does not implement the required component(s) '" ++
        Text.joinWith ", " components ++ "'"
  | .resolutionFailed name causes => name ++ ":" ++ outline causes
  | .missingLocation package component =>
      "Component `" ++ component ++ "` of `" ++ package ++
        "` requires a 'location' attribute"
  | .unreadable file reason =>
      "Failed to read `" ++ file ++ "`: " ++ reason.message
  | .nestedTooDeeply name =>
      "The requirements of `" ++ name ++ "` are nested too deeply"
  | .unknownNode node =>
      "Node " ++ Nat.repr node ++ " is not in the package graph"
  | .undefinedComponent package component =>
      "selected component `" ++ component ++ "` is not defined by `" ++
        package ++ "`"

/-- The reports of several failures, each on lines of its own one level
deeper. -/
def outline : List Failure -> String
  | [] => ""
  | cause :: rest => "\n  " ++ indent cause.message ++ outline rest

end

@[simp] theorem message_resolutionFailed
    (name : String)
    (causes : List Failure) :
    message (.resolutionFailed name causes) = name ++ ":" ++ outline causes := rfl

@[simp] theorem outline_nil : outline [] = "" := rfl

@[simp] theorem outline_cons
    (cause : Failure)
    (rest : List Failure) :
    outline (cause :: rest) =
      "\n  " ++ indent cause.message ++ outline rest := rfl

mutual

/-- The failures that are not made of others, in the order of the tree. -/
def rootCauses : Failure -> List Failure
  | .resolutionFailed _ causes => rootCausesOf causes
  | failure => [failure]

/-- The root causes of several failures in order. -/
def rootCausesOf : List Failure -> List Failure
  | [] => []
  | cause :: rest => cause.rootCauses ++ rootCausesOf rest

end

end Failure
end PackageFlags
