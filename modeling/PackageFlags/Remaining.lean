/-!
# What remains to be done

Walks over finite graphs end because each step takes something out of a finite
list of what remains. Every member of the list that is not done yet stands for
its cost, the number of steps that it may give rise to, and one more. When a
member becomes done, what remains falls by that much, which pays for the steps
that it adds to the walk.
-/

namespace PackageFlags

variable {α : Type} [DecidableEq α]

/-- The costs of the members of a list that are not done, each with one more. -/
def remaining (cost : α -> Nat) : List α -> List α -> Nat
  | [], _ => 0
  | first :: rest, done =>
      (if first ∈ done then 0 else cost first + 1) + remaining cost rest done

theorem remaining_cons
    (cost : α -> Nat)
    (first : α)
    (rest done : List α) :
    remaining cost (first :: rest) done =
      (if first ∈ done then 0 else cost first + 1)
        + remaining cost rest done := rfl

/-- When more is done, no more remains. -/
theorem remaining_le
    (cost : α -> Nat)
    {all done more : List α}
    (grows : done ⊆ more) :
    remaining cost all more ≤ remaining cost all done := by
  induction all with
  | nil => exact Nat.le_refl _
  | cons first rest restLe =>
      rw [remaining_cons, remaining_cons]
      by_cases isDone : first ∈ done
      · simp [isDone, grows isDone, restLe]
      · by_cases isMore : first ∈ more
        · simp [isDone, isMore]
          omega
        · simp [isDone, isMore, restLe]

/-- When a member becomes done, its cost and one more are taken from what
remains. -/
theorem remaining_add_cost_le
    (cost : α -> Nat)
    {all done more : List α}
    {member : α}
    (grows : done ⊆ more)
    (memberOfAll : member ∈ all)
    (notDone : member ∉ done)
    (isDone : member ∈ more) :
    remaining cost all more + (cost member + 1) ≤ remaining cost all done := by
  induction all with
  | nil => simp at memberOfAll
  | cons first rest restLe =>
      rw [remaining_cons, remaining_cons]
      by_cases same : first = member
      · subst same
        have noMore : remaining cost rest more ≤ remaining cost rest done :=
          remaining_le cost grows
        simp [notDone, isDone]
        omega
      · have memberOfRest : member ∈ rest := by
          rcases List.mem_cons.mp memberOfAll with equal | later
          · exact absurd equal.symm same
          · exact later
        have fewer := restLe memberOfRest
        by_cases firstDone : first ∈ done
        · simp [firstDone, grows firstDone]
          omega
        · by_cases firstMore : first ∈ more
          · simp [firstDone, firstMore]
            omega
          · simp [firstDone, firstMore]
            omega

end PackageFlags
