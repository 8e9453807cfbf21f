import Mathlib.Data.Prod.Lex
import Mathlib.Order.PiLex
import Mathlib.Order.WithBot
import PackageFlags.Version.Simple

/-!
# The order of simple versions

Versions are ordered by a key: the core continued with zeros, then the suffix, of
which none is the least. Keys are linearly ordered, so comparing versions is
reflexive, total and transitive.
-/

namespace PackageFlags
namespace Version
namespace Simple

/-- Numbers continued with zeros, ordered by the first place where they differ. -/
abbrev Places := Lex (Nat -> Nat)

/-- The places of a list of numbers. -/
def places (numbers : List Nat) : Places :=
  toLex fun place => numbers.getD place 0

theorem places_nil : places [] = places [0] := by
  funext place
  cases place <;> rfl

/-- A lesser first number makes the places less. -/
theorem places_lt_of_first
    {left right : Nat}
    (less : left < right)
    (lefts rights : List Nat) :
    places (left :: lefts) < places (right :: rights) :=
  ⟨0, fun other isBefore => absurd isBefore (Nat.not_lt_zero other), less⟩

/-- Behind a common first number the rest decides. -/
theorem places_lt_of_rest
    (first : Nat)
    {lefts rights : List Nat}
    (less : places lefts < places rights) :
    places (first :: lefts) < places (first :: rights) := by
  obtain ⟨place, same, isLess⟩ := less
  refine ⟨place + 1, fun other isBefore => ?_, isLess⟩
  cases other with
  | zero => rfl
  | succ other => exact same other (Nat.lt_of_succ_lt_succ isBefore)

/-- A first number decides the order, or else the numbers behind it. -/
theorem compares_places_cons
    {order : Ordering}
    {lefts rights : List Nat}
    (compares : order.Compares (places lefts) (places rights))
    (left right : Nat) :
    ((compare left right).then order).Compares (places (left :: lefts))
      (places (right :: rights)) := by
  cases isFirst : compare left right with
  | lt => exact places_lt_of_first (Nat.compare_eq_lt.mp isFirst) lefts rights
  | gt => exact places_lt_of_first (Nat.compare_eq_gt.mp isFirst) rights lefts
  | eq =>
      obtain rfl := Nat.compare_eq_eq.mp isFirst
      cases order with
      | lt => exact places_lt_of_rest left compares
      | gt => exact places_lt_of_rest left compares
      | eq =>
          funext place
          cases place with
          | zero => rfl
          | succ place => exact congrFun compares place

/-- Zeros are compared as the places of no numbers. -/
theorem compares_compareZeros (rights : List Nat) :
    (compareZeros rights).Compares (places []) (places rights) := by
  induction rights with
  | nil => rfl
  | cons right rights restCompares =>
      rw [places_nil]
      exact compares_places_cons restCompares 0 right

/-- Numbers are compared as their places. -/
theorem compares_compareNumbers (lefts rights : List Nat) :
    (compareNumbers lefts rights).Compares (places lefts) (places rights) := by
  induction lefts generalizing rights with
  | nil => exact compares_compareZeros rights
  | cons left lefts restCompares =>
      cases rights with
      | nil =>
          rw [places_nil]
          exact compares_places_cons (restCompares []) left 0
      | cons right rights => exact compares_places_cons (restCompares rights) left right

/-- The places of a suffix, if there is one. -/
def suffixKey : Option (List Nat) -> WithBot Places
  | none => ⊥
  | some numbers => places numbers

/-- What decides the order of a version. -/
def key (version : Simple) : Places ×ₗ WithBot Places :=
  toLex (places version.core, suffixKey version.suffix)

theorem compares_compareSuffixes (left right : Option (List Nat)) :
    (compareSuffixes left right).Compares (suffixKey left) (suffixKey right) := by
  match left, right with
  | none, none => rfl
  | none, some numbers => exact WithBot.bot_lt_coe (places numbers)
  | some numbers, none => exact WithBot.bot_lt_coe (places numbers)
  | some lefts, some rights =>
      have compares := compares_compareNumbers lefts rights
      change (compareNumbers lefts rights).Compares _ _
      cases isCompared : compareNumbers lefts rights <;> rw [isCompared] at compares
      · exact WithBot.coe_lt_coe.mpr compares
      · exact congrArg WithBot.some compares
      · exact WithBot.coe_lt_coe.mpr compares

/-- Versions are compared as their keys. -/
theorem compares_order (left right : Simple) :
    (left.order right).Compares left.key right.key := by
  have cores := compares_compareNumbers left.core right.core
  unfold order
  cases areCores : compareNumbers left.core right.core <;> rw [areCores] at cores
  · exact Prod.Lex.toLex_lt_toLex.mpr (Or.inl cores)
  · have suffixes := compares_compareSuffixes left.suffix right.suffix
    change (compareSuffixes left.suffix right.suffix).Compares left.key right.key
    cases areSuffixes : compareSuffixes left.suffix right.suffix <;>
      rw [areSuffixes] at suffixes
    · exact Prod.Lex.toLex_lt_toLex.mpr (Or.inr ⟨cores, suffixes⟩)
    · exact congrArg toLex (Prod.ext cores suffixes)
    · exact Prod.Lex.toLex_lt_toLex.mpr (Or.inr ⟨cores.symm, suffixes⟩)
  · exact Prod.Lex.toLex_lt_toLex.mpr (Or.inl cores)

/-- A version is not less than itself. -/
theorem order_self (version : Simple) : version.order version = .eq :=
  (compares_order version version).eq_eq.mpr rfl

/-- What is not less than a version that is not less than another is not less than
the other. -/
theorem order_ne_lt_trans
    {first second third : Simple}
    (notLess : first.order second ≠ .lt)
    (notLessThen : second.order third ≠ .lt) :
    first.order third ≠ .lt := by
  rw [(compares_order _ _).ne_lt] at notLess notLessThen ⊢
  exact notLessThen.trans notLess

theorem isLE_order_iff {left right : Simple} :
    (left.order right).isLE = true ↔ left.key ≤ right.key := by
  rw [← (compares_order left right).ne_gt]
  cases left.order right <;> decide

/-- The order of versions is a total preorder. -/
instance : Std.TransCmp order where
  eq_swap :=
    (compares_order _ _).inj (Ordering.compares_swap.mpr (compares_order _ _))
  isLE_trans isBelow isBelowThen :=
    isLE_order_iff.mpr
      ((isLE_order_iff.mp isBelow).trans (isLE_order_iff.mp isBelowThen))

end Simple
end Version
end PackageFlags
