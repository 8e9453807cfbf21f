import PackageFlags.Proofs.Registry.Nesting
import PackageFlags.Proofs.Registry.Sessions

/-!
# Registries that arise while packages are built

Besides the registries between calls there are those in the middle of a call: some
packages are entered already but not connected, since their requirements are just
being built. These are built as names are between calls, by `build_eq_findOrLoad`.
All registries that arise are consistent, so that a failing build leaves each of
them as it was.
-/

namespace PackageFlags
namespace Registry

/-- A package is about to be entered under a name: all candidates in front of the
one that it was loaded from have failed. -/
structure Trying
    (world : World)
    (before : Registry)
    (name : String)
    (middle : Registry)
    (package : Package) : Prop where
  /-- The name is not in the registry. -/
  isNew : before.find? name = none
  /-- The candidates that were tried have failed, and the next one is loaded. -/
  isTried : ∃ requirement tried candidate untried failures,
    world.search.candidates world.files name =
        .ok (tried ++ candidate :: untried)
      ∧ tryCandidates world (build world) before name requirement tried =
          (middle, .error failures)
      ∧ loadCandidate world requirement candidate = .ok package

/-- The registries that calls go through, the last of which is made in a world. -/
inductive Arises (world : World) : Registry -> Prop
  /-- Between calls. -/
  | between (calls : List (World × Call)) :
      Arises world (Session.run calls).registry
  /-- After some candidates for a name have failed. -/
  | rejected
      {before middle : Registry}
      {name : String}
      {package : Package}
      (arises : Arises world before)
      (trying : Trying world before name middle package) :
      Arises world middle
  /-- After a package was entered and some of its requirements were built. -/
  | entered
      {before middle after : Registry}
      {name : String}
      {package : Package}
      {requirements remaining : List (String × Requirement)}
      {children : List (String × NodeId)}
      (arises : Arises world before)
      (trying : Trying world before name middle package)
      (isSplit : package.requires.entries = requirements ++ remaining)
      (isBuilt : buildRequired (build world) (middle.enter name package)
        requirements = (after, .ok children)) :
      Arises world after
  /-- After all requirements of a package were built and it was connected with some
  of them. -/
  | connected
      {before middle after : Registry}
      {name : String}
      {package : Package}
      {children unconnected : List (String × NodeId)}
      (arises : Arises world before)
      (trying : Trying world before name middle package)
      (isBuilt : buildRequired (build world) (middle.enter name package)
        package.requires.entries = (after, .ok (children ++ unconnected))) :
      Arises world (after.connect middle.graph.fresh children)

variable {world : World} {registry before middle after : Registry}

/-- Candidates that have failed leave the registry as it was. -/
theorem Trying.middle_eq
    {name : String}
    {package : Package}
    (trying : Trying world before name middle package)
    (consistent : Consistent before) :
    middle = before := by
  obtain ⟨_, _, _, _, _, _, haveFailed, _⟩ := trying.isTried
  exact (build_sound world).tryCandidates_error consistent trying.isNew haveFailed

/-- Entering the package that is tried keeps a registry consistent. -/
theorem Trying.consistent_enter
    {name : String}
    {package : Package}
    (trying : Trying world before name middle package)
    (consistent : Consistent before) :
    Consistent (middle.enter name package) :=
  trying.middle_eq consistent ▸ consistent.enter trying.isNew package

/-- Registries that arise are consistent. -/
theorem Arises.consistent (arises : Arises world registry) :
    Consistent registry := by
  induction arises with
  | between calls => exact (Session.run_sound calls).consistent
  | rejected _ trying consistent =>
      rw [trying.middle_eq consistent]
      exact consistent
  | entered _ trying _ isBuilt consistent =>
      exact ((build_sound world).foundAll (trying.consistent_enter consistent)
        isBuilt).consistent
  | connected _ trying isBuilt consistent =>
      exact ((build_sound world).foundAll (trying.consistent_enter consistent)
        isBuilt).consistent.connect _ _

/-- A name that cannot be built leaves every registry that arises as it was: the
cache, the journal, the packages at the nodes, and the edges. -/
theorem build_error_eq
    (arises : Arises world before)
    {name : String}
    {requirement : Requirement}
    {failure : Failure}
    (failed : build world before name requirement = (after, .error failure)) :
    after = before :=
  (build_sound world).restored arises.consistent failed

/-- The text of a description with one component, of a package that requires
others. -/
def requiringText (name requires : String) : String :=
  "\x7b\"name\": \"" ++ name ++ "\", \"cps_version\": \"0.10.0\", " ++
  "\"components\": \x7b\"c\": \x7b\"type\": \"interface\"\x7d\x7d, " ++
  "\"requires\": \x7b" ++ requires ++ "\x7d\x7d"

/-- A tree with two packages that require each other, the second of which requires
one that is missing too. -/
def unfinishedCycle : World where
  files := {
    entries := [
      (["a.cps"], .file (requiringText "a" "\"b.cps\": \x7b\x7d").toUTF8),
      (["b.cps"], .file (requiringText "b"
        "\"a.cps\": \x7b\x7d, \"missing\": \x7b\x7d").toUTF8)] }
  search := { directories := [] }

/-- The first package of the cycle. -/
def cycleStart : Package where
  name := "a"
  cpsVersion := "0.10.0"
  components := NameMap.empty.insert "c" { kind := .interface }
  compatVersion := none
  version := none
  versionSchema := .simple
  defaultComponents := none
  requires := NameMap.empty.insert "b.cps" {}
  root := ⟨""⟩
  source := ⟨"a.cps"⟩

/-- The file of the first package of the cycle. -/
def cycleStartFile : Candidate where
  path := ⟨"a.cps"⟩
  format := .cps

theorem candidates_cycleStart :
    unfinishedCycle.search.candidates unfinishedCycle.files "a.cps" =
      .ok [cycleStartFile] := by
  have isLiteral : unfinishedCycle.files.isFile ⟨"a.cps"⟩ = true := by
    decide +kernel
  unfold SearchPath.candidates
  rw [if_pos isLiteral]
  rfl

theorem loadCandidate_cycleStart :
    loadCandidate unfinishedCycle {} cycleStartFile = .ok cycleStart :=
  Outcome.eq_ok_of_toOption (by decide +kernel)

/-- The first package of the cycle is about to be entered into the registry without
packages. -/
theorem trying_cycleStart :
    Trying unfinishedCycle empty "a.cps" empty cycleStart where
  isNew := rfl
  isTried := ⟨{}, [], cycleStartFile, [], [], candidates_cycleStart, rfl,
    loadCandidate_cycleStart⟩

/-- The second package of the cycle cannot be built, and the first one stays, entered
and not connected. -/
theorem build_error_eq_cycleStart :
    Arises unfinishedCycle (empty.enter "a.cps" cycleStart)
      ∧ ∃ failure, build unfinishedCycle (empty.enter "a.cps" cycleStart)
          "b.cps" {} = (empty.enter "a.cps" cycleStart, .error failure) := by
  have isBuilt : buildRequired (build unfinishedCycle)
      (empty.enter "a.cps" cycleStart) [] =
        (empty.enter "a.cps" cycleStart, .ok []) := rfl
  have arises : Arises unfinishedCycle (empty.enter "a.cps" cycleStart) :=
    Arises.entered (.between []) trying_cycleStart rfl isBuilt
  have fails : (build unfinishedCycle (empty.enter "a.cps" cycleStart)
      "b.cps" {}).2.isOk = false := by
    decide +kernel
  cases failed : build unfinishedCycle (empty.enter "a.cps" cycleStart)
      "b.cps" {} with
  | mk after outcome =>
      rw [failed] at fails
      obtain ⟨failure, rfl⟩ := Outcome.eq_error_of_isOk fails
      rw [build_error_eq arises failed]
      exact ⟨arises, failure, rfl⟩

end Registry
end PackageFlags
