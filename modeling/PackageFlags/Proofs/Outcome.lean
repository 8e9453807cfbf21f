/-!
# Outcomes of steps that may fail

What a result says about the steps that led to it.
-/

namespace PackageFlags
namespace Outcome

variable {ε η α β : Type}

/-- Two steps succeed when the first does and then the second. -/
theorem bind_eq_ok
    {first : Except ε α}
    {second : α -> Except ε β}
    {result : β} :
    first >>= second = .ok result ↔
      ∃ value, first = .ok value ∧ second value = .ok result := by
  cases first <;> simp [bind, Except.bind]

/-- A result that is rewritten was one before. -/
theorem map_eq_ok
    {first : Except ε α}
    {rewrite : α -> β}
    {result : β} :
    first.map rewrite = .ok result ↔
      ∃ value, first = .ok value ∧ rewrite value = result := by
  cases first <;> simp [Except.map]

/-- Rewriting failures leaves results alone. -/
theorem mapError_eq_ok
    {first : Except ε α}
    {rewrite : ε -> η}
    {result : α} :
    first.mapError rewrite = .ok result ↔ first = .ok result := by
  cases first with
  | error failure => exact ⟨nofun, nofun⟩
  | ok value =>
      constructor
      · rintro ⟨⟩
        rfl
      · rintro ⟨⟩
        rfl

/-- Two steps fail when the first does, or the second after it. -/
theorem bind_eq_error
    {first : Except ε α}
    {second : α -> Except ε β}
    {failure : ε} :
    first >>= second = .error failure ↔
      first = .error failure
        ∨ ∃ value, first = .ok value ∧ second value = .error failure := by
  cases first <;> simp [bind, Except.bind]

/-- A result that is rewritten does not change a failure. -/
theorem map_eq_error
    {first : Except ε α}
    {rewrite : α -> β}
    {failure : ε} :
    first.map rewrite = .error failure ↔ first = .error failure := by
  cases first <;> simp [Except.map]

/-- A failure that is rewritten was one before. -/
theorem mapError_eq_error
    {first : Except ε α}
    {rewrite : ε -> η}
    {failure : η} :
    first.mapError rewrite = .error failure ↔
      ∃ cause, first = .error cause ∧ rewrite cause = failure := by
  cases first with
  | error cause =>
      constructor
      · rintro ⟨⟩
        exact ⟨cause, rfl, rfl⟩
      · rintro ⟨_, ⟨⟩, rfl⟩
        rfl
  | ok value => exact ⟨nofun, nofun⟩

/-- The value of a finished step is its result. -/
theorem pure_eq_ok {value result : α} :
    (pure value : Except ε α) = .ok result ↔ value = result := by
  simp [pure, Except.pure]

/-- Nothing follows a failure. -/
@[simp] theorem throw_bind
    (failure : ε)
    (next : α -> Except ε β) :
    ((throw failure : Except ε α) >>= next) = .error failure := rfl

/-- What follows a finished step goes on from its result. -/
@[simp] theorem ok_bind
    (value : α)
    (next : α -> Except ε β) :
    (Except.ok value >>= next) = next value := rfl

/-- A step that gives a result has succeeded with it. -/
theorem eq_ok_of_toOption
    {step : Except ε α}
    {result : α}
    (gives : step.toOption = some result) :
    step = .ok result := by
  cases step with
  | error failure => simp [Except.toOption] at gives
  | ok value =>
      rw [Except.toOption, Option.some.injEq] at gives
      rw [gives]

/-- A step that succeeds has a result. -/
theorem eq_ok_of_isOk
    {step : Except ε α}
    (succeeds : step.isOk = true) :
    ∃ result, step = .ok result := by
  cases step with
  | error failure => simp [Except.isOk, Except.toBool] at succeeds
  | ok result => exact ⟨result, rfl⟩

/-- A step that does not succeed has failed. -/
theorem eq_error_of_isOk
    {step : Except ε α}
    (fails : step.isOk = false) :
    ∃ failure, step = .error failure := by
  cases step with
  | error failure => exact ⟨failure, rfl⟩
  | ok value => simp [Except.isOk, Except.toBool] at fails

/-! ## Whether a step succeeds -/

/-- A step has a result. -/
def Succeeds (step : Except ε α) : Prop :=
  ∃ result, step = .ok result

theorem exists_eq_ok_iff {step : Except ε α} :
    (∃ result, step = .ok result) ↔ Succeeds step := Iff.rfl

@[simp] theorem succeeds_pure (value : α) :
    Succeeds (pure value : Except ε α) :=
  ⟨value, rfl⟩

@[simp] theorem not_succeeds_error (failure : ε) :
    ¬ Succeeds (.error failure : Except ε α) := nofun

@[simp] theorem not_succeeds_throw (failure : ε) :
    ¬ Succeeds (throw failure : Except ε α) := nofun

/-- Two steps have a result when the second has one after the first. -/
theorem succeeds_bind
    {first : Except ε α}
    {second : α -> Except ε β} :
    Succeeds (first >>= second) ↔
      ∃ value, first = .ok value ∧ Succeeds (second value) := by
  unfold Succeeds
  simp only [bind_eq_ok]
  constructor
  · rintro ⟨result, value, isFirst, isSecond⟩
    exact ⟨value, isFirst, result, isSecond⟩
  · rintro ⟨value, isFirst, result, isSecond⟩
    exact ⟨result, value, isFirst, isSecond⟩

@[simp] theorem succeeds_map
    {first : Except ε α}
    {rewrite : α -> β} :
    Succeeds (first.map rewrite) ↔ Succeeds first := by
  cases first <;> simp [Succeeds, Except.map]

@[simp] theorem succeeds_mapError
    {first : Except ε α}
    {rewrite : ε -> η} :
    Succeeds (first.mapError rewrite) ↔ Succeeds first := by
  unfold Succeeds
  simp only [mapError_eq_ok]

/-- What fails on a condition has a result when the condition does not hold and the
rest has one. -/
theorem succeeds_unless
    {condition : Prop}
    [Decidable condition]
    {failure : ε}
    {next : α -> Except ε β}
    {step : Except ε β} :
    Succeeds (if condition then throw failure >>= next else step) ↔
      ¬ condition ∧ Succeeds step := by
  by_cases holds : condition <;> simp [holds]

/-- A step has a result on a list when it has one on each item. -/
theorem succeeds_mapM
    {step : α -> Except ε β}
    {items : List α} :
    Succeeds (items.mapM step) ↔ ∀ item ∈ items, Succeeds (step item) := by
  induction items with
  | nil => simp
  | cons first rest restSucceeds =>
      simp only [List.mapM_cons, succeeds_bind, succeeds_pure, and_true,
        exists_and_right, List.forall_mem_cons]
      exact and_congr_right' restSucceeds

/-- What is read of a list item by item, if each item gives what is expected of it. -/
theorem filterMap_of_mapM
    {step : α -> Except ε β}
    {expected : α -> Option β}
    (gives : ∀ item result, step item = .ok result → expected item = some result)
    {items : List α}
    {results : List β}
    (areRead : items.mapM step = .ok results) :
    items.filterMap expected = results := by
  induction items generalizing results with
  | nil =>
      cases areRead
      rfl
  | cons first rest restGives =>
      rw [List.mapM_cons] at areRead
      obtain ⟨result, isFirst, areRest⟩ := bind_eq_ok.mp areRead
      obtain ⟨others, areOthers, same⟩ := bind_eq_ok.mp areRest
      cases same
      rw [List.filterMap_cons_some (gives first result isFirst), restGives areOthers]

/-! ## Outcomes of two runs -/

/-- Two steps fail for the same reason, or both succeed with related results. -/
inductive Alike
    {γ : Type}
    (related : α -> γ -> Prop) : Except ε α -> Except ε γ -> Prop
  /-- Both fail. -/
  | error (failure : ε) : Alike related (.error failure) (.error failure)
  /-- Both succeed. -/
  | ok
      {left : α}
      {right : γ}
      (isRelated : related left right) :
      Alike related (.ok left) (.ok right)

namespace Alike

variable {γ δ : Type} {left : Except ε α} {right : Except ε γ}
variable {related : α -> γ -> Prop}

/-- Steps that are alike for related results are alike behind steps that are. -/
theorem bind
    {next : β -> δ -> Prop}
    (alike : Alike related left right)
    {leftNext : α -> Except ε β}
    {rightNext : γ -> Except ε δ}
    (nextAlike : ∀ leftValue rightValue, related leftValue rightValue →
      Alike next (leftNext leftValue) (rightNext rightValue)) :
    Alike next (left >>= leftNext) (right >>= rightNext) := by
  cases alike with
  | error failure => exact .error failure
  | ok isRelated => exact nextAlike _ _ isRelated

/-- Failures may be rewritten in the same way. -/
theorem mapError
    (alike : Alike related left right)
    (rewrite : ε -> η) :
    Alike related (left.mapError rewrite) (right.mapError rewrite) := by
  cases alike with
  | error failure => exact .error (rewrite failure)
  | ok isRelated => exact .ok isRelated

end Alike
end Outcome
end PackageFlags
