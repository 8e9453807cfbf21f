import PackageFlags.Failure
import PackageFlags.Version.Operator

/-!
# Comparing version texts

Only versions of the simple schema can be compared; under any other schema a
comparison is a failure rather than a guess. Two simple versions are judged number
by number under the operator that they are tested for: the first pair that differs
gives the verdict, and versions without such a pair are equal.
-/

namespace PackageFlags
namespace Version

/-- What comparing two values says about the relation that is tested for. -/
inductive Verdict
  /-- The values differ, and the relation holds. -/
  | holds
  /-- The values differ, and the relation does not hold. -/
  | fails
  /-- The values are equal, so that what follows them decides. -/
  | undecided
  deriving DecidableEq, Repr

namespace Verdict

/-- The verdict of an operator on two values in the given order. -/
def ofOrder (operator : Operator) : Ordering -> Verdict
  | .eq => .undecided
  | order => if operator.accepts order then .holds else .fails

/-- The verdict of what comes first, or else of what follows it. -/
def orElse : Verdict -> Verdict -> Verdict
  | .undecided, next => next
  | decided, _ => decided

/-- Whether the relation holds of values with a verdict; those that are not told
apart are equal. -/
def isAccepted (operator : Operator) : Verdict -> Bool
  | .holds => true
  | .fails => false
  | .undecided => operator.accepts .eq

end Verdict

/-- The verdict on two lists of numbers, the shorter one filled up with zeros: that
of the first pair that differs. -/
def judgeNumbers (operator : Operator) (left right : List Nat) : Verdict :=
  let length := max left.length right.length
  let pairs := (left.rightpad length 0).zip (right.rightpad length 0)
  let verdicts := pairs.map fun (left, right) =>
    Verdict.ofOrder operator (compare left right)
  (verdicts.find? (· ≠ .undecided)).getD .undecided

/-- The verdict on two suffixes. If only one is there, it is the greater. -/
def judgeSuffixes
    (operator : Operator) : Option (List Nat) -> Option (List Nat) -> Verdict
  | some left, some right => judgeNumbers operator left right
  | left, right => Verdict.ofOrder operator (compare left.isSome right.isSome)

/-- The verdict on two simple versions: that on their cores, or else on their
suffixes. -/
def judge (operator : Operator) (left right : Simple) : Verdict :=
  (judgeNumbers operator left.core right.core).orElse
    (judgeSuffixes operator left.suffix right.suffix)

/-- Read a simple version, naming its text in the failure. -/
def parse (text : String) : Except Failure Simple :=
  (Simple.parse text).mapError (Failure.invalidVersion text)

/-- Whether two simple versions are related as an operator says. -/
def holdsSimple
    (left : String)
    (operator : Operator)
    (right : String) : Except Failure Bool := do
  let leftVersion ← parse left
  let rightVersion ← parse right
  return (judge operator leftVersion rightVersion).isAccepted operator

/-- Whether two versions of a schema are related as an operator says. -/
def holds
    (left : String)
    (operator : Operator)
    (right : String) : Schema -> Except Failure Bool
  | .simple => holdsSimple left operator right
  | schema => .error (.unsupportedSchema schema.name)

end Version
end PackageFlags
