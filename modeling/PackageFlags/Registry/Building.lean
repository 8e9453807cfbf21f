import PackageFlags.Constraint
import PackageFlags.Description.Loading
import PackageFlags.Registry.Basic
import PackageFlags.SearchPath

/-!
# Building the package graph

A name is looked up in the registry first, so that each name is loaded once and all
who require it share the node. Otherwise its candidate files are tried in search
order. A candidate is entered as soon as its package meets the requirement, before
its own requirements are, so that cycles find it there. When one of its
requirements fails, everything that was entered since is taken away again and the
next candidate is tried.

The steps are written in terms of a builder for the requirements; `build` ties
the knot by recursion on how deeply requirements may be nested.
-/

namespace PackageFlags

/-- Where packages are looked for. -/
structure World where
  /-- The file tree. -/
  files : FileSystem
  /-- The directories to search. -/
  search : SearchPath

namespace Registry

/-- The registry after an attempt, with what the attempt came to. -/
abbrev Attempt (α : Type) := Registry × Except Failure α

/-- A way to find or add the node for a name under a requirement. -/
abbrev Builder := Registry -> String -> Requirement -> Attempt NodeId

/-- The nodes for requirements in order, up to the first that fails. -/
def buildRequired
    (builder : Builder)
    (registry : Registry) :
    List (String × Requirement) -> Attempt (List (String × NodeId))
  | [] => (registry, .ok [])
  | (name, requirement) :: rest =>
      match builder registry name requirement with
      | (registry, .error failure) => (registry, .error failure)
      | (registry, .ok child) =>
          match buildRequired builder registry rest with
          | (registry, .error failure) => (registry, .error failure)
          | (registry, .ok children) =>
              (registry, .ok ((name, child) :: children))

/-- Enter a package and connect it with what it requires, or take away again
what was entered. -/
def addPackage
    (builder : Builder)
    (registry : Registry)
    (name : String)
    (package : Package) : Attempt NodeId :=
  let id := registry.graph.fresh
  let mark := registry.journal.length
  match buildRequired builder (registry.enter name package)
      package.requires.entries with
  | (grown, .error failure) => (grown.rollback mark, .error failure)
  | (grown, .ok children) => (grown.connect id children, .ok id)

/-- The package of a candidate file, if it meets a requirement. -/
def loadCandidate
    (world : World)
    (requirement : Requirement)
    (candidate : Candidate) : Except Failure Package := do
  let package ←
    Description.loadFile world.files candidate.format candidate.path
  requirement.check package
  return package

/-- Try one candidate file for a name. -/
def tryCandidate
    (world : World)
    (builder : Builder)
    (registry : Registry)
    (name : String)
    (requirement : Requirement)
    (candidate : Candidate) : Attempt NodeId :=
  match loadCandidate world requirement candidate with
  | .error failure => (registry, .error failure)
  | .ok package => addPackage builder registry name package

/-- Try candidates in order until one works, keeping the failures of those that
did not. -/
def tryCandidates
    (world : World)
    (builder : Builder)
    (registry : Registry)
    (name : String)
    (requirement : Requirement) :
    List Candidate -> Registry × Except (List Failure) NodeId
  | [] => (registry, .error [])
  | candidate :: rest =>
      match tryCandidate world builder registry name requirement candidate with
      | (registry, .ok id) => (registry, .ok id)
      | (registry, .error failure) =>
          match tryCandidates world builder registry name requirement rest with
          | (registry, .ok id) => (registry, .ok id)
          | (registry, .error failures) =>
              (registry, .error (failure :: failures))

/-- Load a name that is not in the registry. -/
def loadName
    (world : World)
    (builder : Builder)
    (registry : Registry)
    (name : String)
    (requirement : Requirement) : Attempt NodeId :=
  match world.search.candidates world.files name with
  | .error failure => (registry, .error failure)
  | .ok candidates =>
      match tryCandidates world builder registry name requirement
          candidates with
      | (registry, .ok id) => (registry, .ok id)
      | (registry, .error failures) =>
          (registry, .error (.resolutionFailed name failures))

/-- Use the node that a name has, if its package meets the requirement. -/
def reuse
    (registry : Registry)
    (id : NodeId)
    (requirement : Requirement) : Except Failure NodeId :=
  match registry.graph.package? id with
  | some package => (requirement.check package).map fun _ => id
  | none => .error (.unknownNode id)

/-- Find the node for a name or load it. -/
def findOrLoad (world : World) (builder : Builder) : Builder :=
  fun registry name requirement =>
    match registry.find? name with
    | some id => (registry, registry.reuse id requirement)
    | none => loadName world builder registry name requirement

/-- Find or load the node for a name, with requirements nested less deeply than
a limit. -/
def buildWithin (world : World) : Nat -> Builder
  | 0 => fun registry name _ => (registry, .error (.nestedTooDeeply name))
  | limit + 1 => findOrLoad world (buildWithin world limit)

/-- How deeply requirements can be nested: no name is loaded below itself, so
below the first one there are at most the names that some description requires,
and one that is found in the registry. -/
def nestingLimit (world : World) : Nat :=
  (Description.requiredNames world.files).length + 2

/-- Find or load the node for a name under a requirement. -/
def build (world : World) : Builder :=
  buildWithin world (nestingLimit world)

end Registry
end PackageFlags
