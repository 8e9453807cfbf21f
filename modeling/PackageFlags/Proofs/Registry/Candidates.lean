import PackageFlags.Proofs.Registry.Trials

/-!
# Choosing among candidates

A name gets the node of its first candidate that works on its own. Those in front of
it leave nothing behind, so that the registry is the one that this candidate leads
to. Where none works, the failure says of each why it was rejected.
-/

namespace PackageFlags
namespace Registry

/-- Why a candidate for a name does not work. -/
inductive Rejected
    (world : World)
    (before : Registry)
    (name : String)
    (requirement : Requirement)
    (candidate : Candidate) : Failure -> Prop
  /-- Its file cannot be read. -/
  | unread
      {failure : Failure}
      (isUnread : Description.loadFile world.files candidate.format
        candidate.path = .error failure) :
      Rejected world before name requirement candidate failure
  /-- Its package does not meet the requirement. -/
  | unmet
      {package : Package}
      {failure : Failure}
      (isRead : Description.loadFile world.files candidate.format
        candidate.path = .ok package)
      (isUnmet : requirement.check package = .error failure) :
      Rejected world before name requirement candidate failure
  /-- One of the requirements of its package fails, after those with smaller names
  were built. -/
  | blocked
      {package : Package}
      {failure : Failure}
      {earlier later : List (String × Requirement)}
      {dependency : String}
      {required : Requirement}
      {middle after : Registry}
      {children : List (String × NodeId)}
      (isRead : Description.loadFile world.files candidate.format
        candidate.path = .ok package)
      (isMet : requirement.check package = .ok ())
      (isSplit : package.requires.entries =
        earlier ++ (dependency, required) :: later)
      (areBuilt : buildRequired (build world) (before.enter name package)
        earlier = (middle, .ok children))
      (fails : build world middle dependency required =
        (after, .error failure)) :
      Rejected world before name requirement candidate failure

variable {world : World} {before after : Registry}
variable {name : String} {requirement : Requirement}

/-- A candidate that fails when it is tried is rejected. -/
theorem rejected_of_tryCandidate
    {candidate : Candidate}
    {failure : Failure}
    (failed : tryCandidate world (build world) before name requirement
      candidate = (after, .error failure)) :
    Rejected world before name requirement candidate failure := by
  unfold tryCandidate at failed
  split at failed
  · rename_i cause isLoaded
    cases failed
    rcases loadCandidate_eq_error isLoaded with isUnread | ⟨package, isRead, isUnmet⟩
    · exact .unread isUnread
    · exact .unmet isRead isUnmet
  · rename_i package isLoaded
    obtain ⟨isRead, isMet⟩ := loadCandidate_eq_ok isLoaded
    obtain ⟨grown, isFailure⟩ := addPackage_eq_error failed
    obtain ⟨earlier, dependency, required, later, middle, children, isSplit,
      areBuilt, fails⟩ := buildRequired_eq_error isFailure
    exact .blocked isRead isMet isSplit areBuilt fails

/-- Building a name that is not in the registry comes to the first of its candidates
that works on its own, or to the failures of all. -/
theorem trial_of_build
    (consistent : Consistent before)
    (isNew : before.find? name = none)
    (requirement : Requirement)
    {candidates : List Candidate}
    (areCandidates : world.search.candidates world.files name = .ok candidates) :
    Trial.ofAttempt (build world before name requirement) =
      (Trial.first (candidates.map
        (Trial.alone world before name requirement))).mapError
          (Failure.resolutionFailed name) := by
  have sound := build_sound world
  have follows : Trial.Follows (Trial.within world.files (offersIn world)
      (nestingLimit world)) (build world) :=
    Trial.within_follows world (nestingLimit world)
  have sameAlone : Trial.alone world before name requirement =
      Trial.ofCandidate world.files (Trial.within world.files (offersIn world)
        (nestingLimit world)) before name requirement := by
    funext candidate
    rw [Trial.alone_eq consistent isNew,
      follows.ofCandidate_eq sound consistent isNew]
  rw [sameAlone, follows.first_eq sound consistent isNew,
    build_eq_findOrLoad consistent, findOrLoad]
  simp only [isNew, loadName, areCandidates]
  cases tryCandidates world (build world) before name requirement
      candidates with
  | mk last result => cases result <;> rfl

/-- A name that is not in the registry gets the node of its first candidate that
works on its own, with the registry that this candidate leads to, whatever those in
front of it had loaded before they failed. If none works, the failure keeps why each
one was rejected, in order, and the registry stays as it was. No failure of building
keeps an empty list of causes, at any depth. -/
theorem build_picks_first
    (arises : Arises world before)
    (name : String)
    (requirement : Requirement) :
    (∀ candidates, before.find? name = none →
        world.search.candidates world.files name = .ok candidates →
        candidates ≠ []
          ∧ (∀ tried candidate untried after id,
              candidates = tried ++ candidate :: untried →
              (∀ other ∈ tried, ∃ failure,
                Trial.alone world before name requirement other =
                  .error failure) →
              Trial.alone world before name requirement candidate =
                .ok (after, id) →
              build world before name requirement = (after, .ok id))
          ∧ (∀ causes,
              candidates.map (Trial.alone world before name requirement) =
                causes.map .error →
              build world before name requirement =
                (before, .error (.resolutionFailed name causes)))
          ∧ ∀ candidate failure,
              Trial.alone world before name requirement candidate =
                .error failure →
              Rejected world before name requirement candidate failure)
      ∧ ∀ after failure,
          build world before name requirement = (after, .error failure) →
          ∀ other, ¬ failure.Contains (.resolutionFailed other []) := by
  have consistent := arises.consistent
  constructor
  · intro candidates isNew areCandidates
    have trial := trial_of_build consistent isNew requirement areCandidates
    refine ⟨SearchPath.candidates_ne_nil areCandidates, ?_, ?_, ?_⟩
    · rintro tried candidate untried after id rfl haveFailed works
      apply Trial.eq_of_ofAttempt_eq_ok
      rw [trial, List.map_append, List.map_cons, works, Trial.first_append_ok]
      · rfl
      · intro outcome isOutcome
        obtain ⟨other, isTried, rfl⟩ := List.mem_map.mp isOutcome
        exact haveFailed other isTried
    · intro causes areCauses
      rw [areCauses, Trial.first_map_error] at trial
      obtain ⟨after, failed⟩ := Trial.eq_of_ofAttempt_eq_error trial
      rw [failed, (build_sound world).restored consistent failed]
    · intro candidate failure failed
      rw [Trial.alone_eq consistent isNew] at failed
      obtain ⟨after, isTried⟩ := Trial.eq_of_ofAttempt_eq_error failed
      exact rejected_of_tryCandidate isTried
  · intro after failure failed other contains
    have ofBuilding := ofBuilding_of_build consistent failed
    exact (ofBuilding.part contains).ne_resolutionFailed_nil other rfl

/-- A tree with two candidates for one name. The first requires a package that is
missing besides one that both require. -/
def twoCandidates : World where
  files := {
    entries := [
      (["p"], .directory),
      (["q"], .directory),
      (["p", "a.pc"], .file "Name: a\nRequires: b, missing\n".toUTF8),
      (["p", "b.pc"], .file "Name: b\n".toUTF8),
      (["q", "a.pc"], .file "Name: a\nRequires: b\n".toUTF8)] }
  search := { directories := [(⟨"p"⟩, .pkgConfig), (⟨"q"⟩, .pkgConfig)] }

/-- The candidate in a directory of that tree. -/
def candidateOf (directory : String) : Candidate where
  path := ⟨directory ++ "/a.pc"⟩
  format := .pkgConfig

/-- The second of two candidates is taken with what it leads to on its own. -/
theorem build_picks_first_twoCandidates :
    ∃ after id, Trial.alone twoCandidates empty "a" {} (candidateOf "q") =
        .ok (after, id)
      ∧ build twoCandidates empty "a" {} = (after, .ok id) := by
  have areCandidates : twoCandidates.search.candidates twoCandidates.files "a" =
      .ok [candidateOf "p", candidateOf "q"] :=
    Outcome.eq_ok_of_toOption (by decide +kernel)
  have firstFails : (Trial.alone twoCandidates empty "a" {}
      (candidateOf "p")).isOk = false := by
    decide +kernel
  have secondWorks : (Trial.alone twoCandidates empty "a" {}
      (candidateOf "q")).isOk = true := by
    decide +kernel
  obtain ⟨⟨after, id⟩, works⟩ := Outcome.eq_ok_of_isOk secondWorks
  have picks := (build_picks_first (.between []) "a" {}).1 _ rfl areCandidates
  refine ⟨after, id, works,
    picks.2.1 [candidateOf "p"] (candidateOf "q") [] after id rfl ?_ works⟩
  intro other isTried
  rw [List.mem_singleton.mp isTried]
  exact Outcome.eq_error_of_isOk firstFails

end Registry
end PackageFlags
