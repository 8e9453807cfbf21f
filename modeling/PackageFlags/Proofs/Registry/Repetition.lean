import PackageFlags.Proofs.Registry.Nesting
import PackageFlags.Proofs.Registry.Persistence

/-!
# Asking again

A query that is repeated gets the answer that it got before. The first time its package
may have been searched for, and the second time it is in the registry, where it meets
the same requirement. If it could not be loaded the registry is what it was, and the
search fails again for the same reasons, as long as the files are the same. A package
that has been loaded is not searched for, so that files make no difference to it.
-/

namespace PackageFlags

namespace Registry

variable {before after : Registry} {name : String} {requirement : Requirement}

/-- A name that is in the registry is not searched for. -/
theorem build_of_cached
    (consistent : Consistent before)
    {id : NodeId}
    (cached : before.find? name = some id)
    (world : World) :
    before.build world name requirement = (before, before.reuse id requirement) := by
  rw [build_eq_findOrLoad consistent]
  simp only [findOrLoad, cached]

/-- A node whose package meets a requirement is used again for it. -/
theorem reuse_of_meets
    {id : NodeId}
    (meets : before.Meets id requirement) :
    before.reuse id requirement = .ok id := by
  obtain ⟨package, isPackage, isMet⟩ := meets
  unfold reuse
  rw [isPackage]
  simp only [isMet, Except.map]

/-- A node that has been found or loaded is found again, wherever it is searched for. -/
theorem Found.build_eq
    {id : NodeId}
    (found : Found before after name requirement id)
    (world : World) :
    after.build world name requirement = (after, .ok id) := by
  rw [build_of_cached found.consistent found.cached, reuse_of_meets found.meets]

end Registry

namespace Query

variable {before : Registry}

/-- A query leaves the registry as building its package does, and its answer is that of
building or follows from the graph. -/
theorem resolve_eq
    (query : Query)
    (world : World)
    (before : Registry) :
    query.resolve world before =
      ((before.build world query.name { components := query.components }).1,
        match before.build world query.name { components := query.components } with
        | (_, .error failure) => { warnings := [], outcome := .error failure }
        | (grown, .ok root) => query.answerAt grown.graph root) := by
  unfold resolve
  split
  case h_1 grown failure isBuilt => simp only [isBuilt]
  case h_2 grown root isBuilt => simp only [isBuilt]

/-- Building the package of a query again comes to the same, in the world that it was
built in, and in any world once the package is in the registry. -/
theorem build_again
    (query : Query)
    {world other : World}
    (consistent : before.Consistent)
    (isSettled : other = world
      ∨ ∃ id, (query.resolve world before).1.find? query.name = some id) :
    (query.resolve world before).1.build other query.name
        { components := query.components } =
      before.build world query.name { components := query.components } := by
  rw [resolve_eq] at isSettled ⊢
  have sound := Registry.build_sound world
  cases isBuilt : before.build world query.name
      { components := query.components } with
  | mk after outcome =>
      rw [isBuilt] at isSettled
      cases outcome with
      | ok root => exact (sound.found consistent isBuilt).build_eq other
      | error failure =>
          obtain rfl := sound.restored consistent isBuilt
          rcases isSettled with rfl | ⟨id, cached⟩
          · exact isBuilt
          · rw [← isBuilt, Registry.build_of_cached consistent cached,
              Registry.build_of_cached consistent cached]

end Query

namespace Session

/-- After any calls, a query that is made twice in a row gets the same answer both
times, flags or failure with all its causes and warnings, and the second time leaves
the registry as the first one left it. Once the package of the query is in the
registry, be it that a later pass fails, this holds even if the second call is made in
another world, where files may have been changed or deleted. -/
theorem resolve_again
    (calls : List (World × Call))
    (world : World)
    (query : Query) :
    query.resolve world (query.resolve world (run calls).registry).1 =
        query.resolve world (run calls).registry
      ∧ ∀ id,
          (query.resolve world (run calls).registry).1.find? query.name = some id →
          ∀ other,
            query.resolve other (query.resolve world (run calls).registry).1 =
              query.resolve world (run calls).registry := by
  have consistent := (run_sound calls).consistent
  have again : ∀ other, (other = world
      ∨ ∃ id, (query.resolve world (run calls).registry).1.find? query.name = some id) →
      query.resolve other (query.resolve world (run calls).registry).1 =
        query.resolve world (run calls).registry := by
    intro other isSettled
    rw [query.resolve_eq other, query.build_again consistent isSettled,
      ← query.resolve_eq]
  constructor
  · exact again world (Or.inl rfl)
  · intro id cached other
    exact again other (Or.inr ⟨id, cached⟩)

/-- A tree without files. -/
def noFiles : World where
  files := { entries := [] }
  search := { directories := [] }

/-- The query for the package of which the default component is not defined. -/
def undefinedDefaultQuery : Query where
  name := "a.cps"

/-- A query that fails after its package was built fails in the same way when the file
of the package is gone. -/
theorem resolve_again_undefinedDefault :
    ∃ grown failure,
      undefinedDefaultQuery.resolve undefinedDefault Registry.empty =
          (grown, { warnings := [], outcome := .error failure })
        ∧ undefinedDefaultQuery.resolve noFiles grown =
          (grown, { warnings := [], outcome := .error failure }) := by
  have isLoaded : (undefinedDefaultQuery.resolve undefinedDefault
      (run []).registry).1.find? "a.cps" = some 0 := by
    decide +kernel
  have again := (resolve_again [] undefinedDefault undefinedDefaultQuery).2 0 isLoaded
    noFiles
  have noWarnings : (undefinedDefaultQuery.resolve undefinedDefault
      (run []).registry).2.warnings = [] := by
    decide +kernel
  obtain ⟨failure, fails⟩ := Outcome.eq_error_of_isOk
    (by decide +kernel : (undefinedDefaultQuery.resolve undefinedDefault
      (run []).registry).2.outcome.isOk = false)
  have start : (run []).registry = Registry.empty := rfl
  rw [start] at again noWarnings fails
  generalize undefinedDefaultQuery.resolve undefinedDefault Registry.empty = attempt
    at again noWarnings fails ⊢
  obtain ⟨grown, warnings, outcome⟩ := attempt
  subst noWarnings fails
  exact ⟨grown, failure, rfl, again⟩

end Session
end PackageFlags
