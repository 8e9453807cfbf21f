import PackageFlags.Proofs.Registry.Arising
import PackageFlags.Proofs.Registry.Causes

/-!
# Candidates on their own

Trials follow the rule for building without a journal: every candidate of a name is
tried on the registry as it was when the name was asked for, the first that works is
taken, and a failure keeps nothing, so that there is nothing to take away. Building
comes to the same as trials do, however deeply requirements are nested.

Once a name is in the registry its candidates make no difference. So a candidate
comes to the same among others as when it is the only one of its name.
-/

namespace PackageFlags
namespace Registry

/-- A way to try for the node of a name under a requirement. A failure keeps
nothing. -/
abbrev Trier :=
  Registry -> String -> Requirement -> Except Failure (Registry × NodeId)

/-- The candidates of each name. -/
abbrev Offers := String -> Except Failure (List Candidate)

/-- The candidates that names have in a world. -/
def offersIn (world : World) : Offers :=
  world.search.candidates world.files

/-- Candidates as before, but for a name that has one alone. -/
def onlyOffer (name : String) (candidate : Candidate) (offers : Offers) : Offers :=
  fun other => if other = name then .ok [candidate] else offers other

namespace Trial

/-- The nodes for requirements in order. -/
def required (trier : Trier) (registry : Registry) :
    List (String × Requirement) ->
      Except Failure (Registry × List (String × NodeId))
  | [] => .ok (registry, [])
  | (name, requirement) :: rest => do
      let (grown, child) ← trier registry name requirement
      let (last, children) ← required trier grown rest
      return (last, (name, child) :: children)

/-- The package of a candidate under a name, connected with what it requires. -/
def ofCandidate
    (files : FileSystem)
    (trier : Trier)
    (registry : Registry)
    (name : String)
    (requirement : Requirement)
    (candidate : Candidate) : Except Failure (Registry × NodeId) := do
  let package ← Description.loadFile files candidate.format candidate.path
  requirement.check package
  let (grown, children) ←
    required trier (registry.enter name package) package.requires.entries
  return (grown.connect registry.graph.fresh children, registry.graph.fresh)

/-- The first value among outcomes, or all failures if there is none. -/
def first {ε α : Type} : List (Except ε α) -> Except (List ε) α
  | [] => .error []
  | .ok value :: _ => .ok value
  | .error failure :: rest => (first rest).mapError (List.cons failure)

/-- The node that a name has, or that its first candidate gives which works on
its own. -/
def ofName (files : FileSystem) (offers : Offers) (trier : Trier) : Trier :=
  fun registry name requirement =>
    match registry.find? name with
    | some id => (registry.reuse id requirement).map fun id => (registry, id)
    | none => do
        let candidates ← offers name
        (first (candidates.map
          (ofCandidate files trier registry name requirement))).mapError
            (Failure.resolutionFailed name)

/-- The node for a name, with requirements nested less deeply than a limit. -/
def within (files : FileSystem) (offers : Offers) : Nat -> Trier
  | 0 => fun _ name _ => .error (.nestedTooDeeply name)
  | limit + 1 => ofName files offers (within files offers limit)

/-- What a candidate comes to when it is the only one that its name has. -/
def alone
    (world : World)
    (registry : Registry)
    (name : String)
    (requirement : Requirement)
    (candidate : Candidate) : Except Failure (Registry × NodeId) :=
  ofCandidate world.files
    (within world.files (onlyOffer name candidate (offersIn world))
      (nestingLimit world))
    registry name requirement candidate

/-- An attempt without the registry that a failure leaves. -/
def ofAttempt {ε α : Type} :
    Registry × Except ε α -> Except ε (Registry × α)
  | (registry, .ok value) => .ok (registry, value)
  | (_, .error failure) => .error failure

@[simp] theorem ofAttempt_ok {ε α : Type} (registry : Registry) (value : α) :
    ofAttempt (ε := ε) (registry, .ok value) = .ok (registry, value) := rfl

@[simp] theorem ofAttempt_error {ε α : Type} (registry : Registry) (failure : ε) :
    ofAttempt (α := α) (registry, .error failure) = .error failure := rfl

/-- The registry and the value of an attempt that comes to something. -/
theorem eq_of_ofAttempt_eq_ok
    {ε α : Type}
    {attempt : Registry × Except ε α}
    {registry : Registry}
    {value : α}
    (succeeds : ofAttempt attempt = .ok (registry, value)) :
    attempt = (registry, .ok value) := by
  obtain ⟨after, outcome⟩ := attempt
  cases outcome with
  | error failure => simp at succeeds
  | ok other =>
      rw [ofAttempt_ok, Except.ok.injEq, Prod.mk.injEq] at succeeds
      rw [succeeds.1, succeeds.2]

/-- The failure of an attempt that comes to nothing. -/
theorem eq_of_ofAttempt_eq_error
    {ε α : Type}
    {attempt : Registry × Except ε α}
    {failure : ε}
    (fails : ofAttempt attempt = .error failure) :
    ∃ registry, attempt = (registry, .error failure) := by
  obtain ⟨after, outcome⟩ := attempt
  cases outcome with
  | error other =>
      rw [ofAttempt_error, Except.error.injEq] at fails
      exact ⟨after, fails ▸ rfl⟩
  | ok value => simp at fails

/-! ## The first of several outcomes -/

section First

variable {ε α : Type}

/-- Failures in front of a value are passed over. -/
theorem first_append_ok
    {failed : List (Except ε α)}
    (areFailures : ∀ outcome ∈ failed, ∃ failure, outcome = .error failure)
    (value : α)
    (rest : List (Except ε α)) :
    first (failed ++ .ok value :: rest) = .ok value := by
  induction failed with
  | nil => rfl
  | cons outcome others othersFirst =>
      obtain ⟨⟨failure, rfl⟩, areOthers⟩ := List.forall_mem_cons.mp areFailures
      rw [List.cons_append, first, othersFirst areOthers]
      rfl

/-- Where there are failures alone, all are kept in order. -/
theorem first_map_error (failures : List ε) :
    first (failures.map Except.error : List (Except ε α)) = .error failures := by
  induction failures with
  | nil => rfl
  | cons failure others othersFirst =>
      rw [List.map_cons, first, othersFirst]
      rfl

end First

/-! ## Trials follow building -/

/-- A trier comes to what a builder does on consistent registries. -/
def Follows (trier : Trier) (builder : Builder) : Prop :=
  ∀ registry name requirement, Consistent registry →
    trier registry name requirement =
      ofAttempt (builder registry name requirement)

variable {world : World} {builder : Builder} {trier : Trier}
variable {before after : Registry} {name : String} {requirement : Requirement}

namespace Follows

theorem required_eq
    (follows : Follows trier builder)
    (sound : Sound builder)
    (consistent : Consistent before)
    (requirements : List (String × Requirement)) :
    required trier before requirements =
      ofAttempt (buildRequired builder before requirements) := by
  induction requirements generalizing before with
  | nil => rfl
  | cons first rest restSame =>
      obtain ⟨name, requirement⟩ := first
      rw [required, buildRequired, follows before name requirement consistent]
      cases isFirst : builder before name requirement with
      | mk middle outcome =>
          cases outcome with
          | error failure => rfl
          | ok child =>
              have found := sound.found consistent isFirst
              have restOf := restSame found.consistent
              cases isRest : buildRequired builder middle rest with
              | mk last result =>
                  rw [isRest] at restOf
                  cases result with
                  | error failure =>
                      simp [ofAttempt, restOf, isRest, bind, Except.bind]
                  | ok children =>
                      simp [ofAttempt, restOf, isRest, bind, Except.bind, pure,
                        Except.pure]

theorem ofCandidate_eq
    (follows : Follows trier builder)
    (sound : Sound builder)
    (consistent : Consistent before)
    (isNew : before.find? name = none)
    (candidate : Candidate) :
    ofCandidate world.files trier before name requirement candidate =
      ofAttempt (tryCandidate world builder before name requirement
        candidate) := by
  unfold ofCandidate tryCandidate loadCandidate
  cases isRead : Description.loadFile world.files candidate.format
      candidate.path with
  | error failure => rfl
  | ok package =>
      cases isChecked : requirement.check package with
      | error failure => simp [isChecked, bind, Except.bind, ofAttempt]
      | ok met =>
          have requiredSame := follows.required_eq sound
            (consistent.enter isNew package) package.requires.entries
          simp only [isChecked, bind, Except.bind, pure, Except.pure, addPackage]
          rw [requiredSame]
          cases buildRequired builder (before.enter name package)
              package.requires.entries with
          | mk grown outcome => cases outcome <;> rfl

/-- Candidates that are tried in turn come to the first that works on its own. -/
theorem first_eq
    (follows : Follows trier builder)
    (sound : Sound builder)
    (consistent : Consistent before)
    (isNew : before.find? name = none)
    (world : World)
    (requirement : Requirement)
    (candidates : List Candidate) :
    first (candidates.map
        (ofCandidate world.files trier before name requirement)) =
      ofAttempt (tryCandidates world builder before name requirement
        candidates) := by
  induction candidates with
  | nil => rfl
  | cons candidate rest restSame =>
      rw [List.map_cons, tryCandidates,
        follows.ofCandidate_eq sound consistent isNew candidate]
      cases isTried : tryCandidate world builder before name requirement
          candidate with
      | mk middle outcome =>
          cases outcome with
          | ok id => rfl
          | error failure =>
              -- what failed has left the registry as it was
              rw [sound.tryCandidate_error consistent isNew isTried]
              simp only [ofAttempt, first, restSame]
              cases tryCandidates world builder before name requirement rest with
              | mk last result => cases result <;> rfl

theorem ofName
    (follows : Follows trier builder)
    (sound : Sound builder) :
    Follows (ofName world.files (offersIn world) trier)
      (findOrLoad world builder) := by
  intro registry name requirement consistent
  unfold Trial.ofName findOrLoad
  cases isCached : registry.find? name with
  | some id =>
      cases reused : registry.reuse id requirement <;>
        simp [reused, ofAttempt, Except.map]
  | none =>
      unfold loadName offersIn
      cases world.search.candidates world.files name with
      | error failure => rfl
      | ok candidates =>
          have firstSame := follows.first_eq sound consistent isCached world
            requirement candidates
          simp only [bind, Except.bind]
          rw [firstSame]
          cases tryCandidates world builder registry name requirement
              candidates with
          | mk last result => cases result <;> rfl

end Follows

/-- Trials follow building, however deeply requirements may be nested. -/
theorem within_follows (world : World) (limit : Nat) :
    Follows (within world.files (offersIn world) limit)
      (buildWithin world limit) := by
  induction limit with
  | zero => exact fun registry name requirement _ => rfl
  | succ limit limitFollows =>
      exact limitFollows.ofName (buildWithin_sound world limit)

/-! ## Candidates of a name that is in the registry already -/

/-- Two triers come to the same on consistent registries that have a name. -/
def AgreeBeside (name : String) (left right : Trier) : Prop :=
  ∀ registry other requirement, Consistent registry →
    (∃ id, registry.find? name = some id) →
    left registry other requirement = right registry other requirement

namespace AgreeBeside

variable {left right : Trier}

theorem required_eq
    (agree : AgreeBeside name left right)
    (follows : Follows left builder)
    (sound : Sound builder)
    (consistent : Consistent before)
    (isCached : ∃ id, before.find? name = some id)
    (requirements : List (String × Requirement)) :
    required left before requirements = required right before requirements := by
  induction requirements generalizing before with
  | nil => rfl
  | cons first rest restSame =>
      obtain ⟨other, requirement⟩ := first
      rw [required, required,
        ← agree before other requirement consistent isCached]
      cases isFirst : left before other requirement with
      | error failure => rfl
      | ok grown =>
          obtain ⟨middle, child⟩ := grown
          rw [follows before other requirement consistent] at isFirst
          have found := sound.found consistent (eq_of_ofAttempt_eq_ok isFirst)
          have isKept : ∃ id, middle.find? name = some id := by
            obtain ⟨id, isNode⟩ := isCached
            exact ⟨id, found.grows.find?_eq_some consistent isNode⟩
          simp only [bind, Except.bind, restSame found.consistent isKept]

theorem ofCandidate_eq
    (agree : AgreeBeside name left right)
    (follows : Follows left builder)
    (sound : Sound builder)
    (consistent : Consistent before)
    {other : String}
    (isNew : before.find? other = none)
    (isCached : ∀ package, ∃ id,
      (before.enter other package).find? name = some id)
    (requirement : Requirement)
    (files : FileSystem)
    (candidate : Candidate) :
    ofCandidate files left before other requirement candidate =
      ofCandidate files right before other requirement candidate := by
  have same := fun package => agree.required_eq follows sound
    (consistent.enter isNew package) (isCached package) package.requires.entries
  unfold ofCandidate
  simp only [same]

/-- Beside a name that is in the registry, its candidates make no difference. -/
theorem ofName
    (agree : AgreeBeside name left right)
    (follows : Follows left builder)
    (sound : Sound builder)
    (files : FileSystem)
    (offers : Offers)
    (candidate : Candidate) :
    AgreeBeside name (ofName files offers left)
      (ofName files (onlyOffer name candidate offers) right) := by
  intro registry other requirement consistent isCached
  unfold Trial.ofName
  cases isOther : registry.find? other with
  | some id => rfl
  | none =>
      obtain ⟨id, isNode⟩ := isCached
      have different : other ≠ name := by
        rintro rfl
        rw [isNode] at isOther
        contradiction
      have stays : ∀ package, ∃ id,
          (registry.enter other package).find? name = some id := by
        intro package
        rw [find?_enter, if_neg different.symm]
        exact ⟨id, isNode⟩
      have same := agree.ofCandidate_eq follows sound consistent isOther stays
        requirement files
      simp only [onlyOffer, if_neg different, funext same]

end AgreeBeside

theorem within_agreeBeside
    (world : World)
    (name : String)
    (candidate : Candidate)
    (limit : Nat) :
    AgreeBeside name (within world.files (offersIn world) limit)
      (within world.files (onlyOffer name candidate (offersIn world)) limit) := by
  induction limit with
  | zero => exact fun registry other requirement _ _ => rfl
  | succ limit limitAgree =>
      exact limitAgree.ofName (within_follows world limit)
        (buildWithin_sound world limit) world.files (offersIn world) candidate

/-- A candidate comes to the same on its own as when it is tried among others. -/
theorem alone_eq
    (consistent : Consistent before)
    (isNew : before.find? name = none)
    (requirement : Requirement)
    (candidate : Candidate) :
    alone world before name requirement candidate =
      ofAttempt (tryCandidate world (build world) before name requirement
        candidate) := by
  have follows : Follows (within world.files (offersIn world)
      (nestingLimit world)) (build world) :=
    within_follows world (nestingLimit world)
  have sound := build_sound world
  rw [← follows.ofCandidate_eq sound consistent isNew candidate]
  have isCached : ∀ package, ∃ id,
      (before.enter name package).find? name = some id := fun package =>
    ⟨before.graph.fresh, by simp⟩
  exact ((within_agreeBeside world name candidate _).ofCandidate_eq follows sound
    consistent isNew isCached requirement world.files candidate).symm

end Trial

end Registry
end PackageFlags
