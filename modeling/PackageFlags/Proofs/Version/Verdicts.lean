import Mathlib.Data.List.Perm.Subperm
import PackageFlags.Proofs.Outcome
import PackageFlags.Proofs.Version.Order
import PackageFlags.Version.Comparison

/-!
# Verdicts follow the order

Versions are judged number by number under one operator, and no order of versions is
ever computed. The verdict is nevertheless what the operator accepts of their order,
which is total; so the six operators fit together, on any two versions and along
chains of them.
-/

namespace PackageFlags
namespace Version

variable {operator : Operator}

namespace Verdict

/-- What comes first decides, or else what follows it. -/
theorem ofOrder_then (operator : Operator) (first next : Ordering) :
    ofOrder operator (first.then next) =
      (ofOrder operator first).orElse (ofOrder operator next) := by
  cases first with
  | eq => rfl
  | lt | gt =>
      simp only [Ordering.then, ofOrder]
      split <;> rfl

/-- The verdict of an operator on an order is accepted if the operator accepts the
order. -/
theorem isAccepted_ofOrder (operator : Operator) (order : Ordering) :
    (ofOrder operator order).isAccepted operator = operator.accepts order := by
  cases order with
  | eq => rfl
  | lt | gt =>
      simp only [ofOrder]
      split <;> simp_all [isAccepted]

end Verdict

/-! ## Judging numbers -/

/-- The first pair of numbers decides, or else those behind it. -/
theorem judgeNumbers_cons
    (operator : Operator)
    (left right : Nat)
    (lefts rights : List Nat) :
    judgeNumbers operator (left :: lefts) (right :: rights) =
      (Verdict.ofOrder operator (compare left right)).orElse
        (judgeNumbers operator lefts rights) := by
  simp only [judgeNumbers, List.length_cons, List.rightpad, Nat.add_max_add_right,
    Nat.add_sub_add_right, List.cons_append, List.zip_cons_cons, List.map_cons]
  cases isFirst : Verdict.ofOrder operator (compare left right) <;>
    simp [Verdict.orElse]

/-- A list without numbers is judged as one zero. -/
theorem judgeNumbers_nil_left
    (operator : Operator)
    (right : Nat)
    (rights : List Nat) :
    judgeNumbers operator [] (right :: rights) =
      judgeNumbers operator [0] (right :: rights) := by
  simp [judgeNumbers, List.rightpad, List.replicate_succ]

theorem judgeNumbers_nil_right
    (operator : Operator)
    (left : Nat)
    (lefts : List Nat) :
    judgeNumbers operator (left :: lefts) [] =
      judgeNumbers operator (left :: lefts) [0] := by
  simp [judgeNumbers, List.rightpad, List.replicate_succ]

/-- Numbers are judged by their order. -/
theorem judgeNumbers_eq (operator : Operator) (lefts rights : List Nat) :
    judgeNumbers operator lefts rights =
      Verdict.ofOrder operator (Simple.compareNumbers lefts rights) := by
  induction lefts generalizing rights with
  | nil =>
      induction rights with
      | nil => rfl
      | cons right rights restSame =>
          rw [judgeNumbers_nil_left, judgeNumbers_cons, restSame,
            ← Verdict.ofOrder_then]
          rfl
  | cons left lefts restSame =>
      cases rights with
      | nil =>
          rw [judgeNumbers_nil_right, judgeNumbers_cons, restSame,
            ← Verdict.ofOrder_then]
          rfl
      | cons right rights =>
          rw [judgeNumbers_cons, restSame, ← Verdict.ofOrder_then]
          rfl

/-- Versions are judged by their order. -/
theorem judge_eq (operator : Operator) (left right : Simple) :
    judge operator left right = Verdict.ofOrder operator (left.order right) := by
  have suffixesSame : judgeSuffixes operator left.suffix right.suffix =
      Verdict.ofOrder operator
        (Simple.compareSuffixes left.suffix right.suffix) := by
    match left.suffix, right.suffix with
    | none, none | none, some _ | some _, none => rfl
    | some lefts, some rights => exact judgeNumbers_eq operator lefts rights
  unfold judge Simple.order
  rw [judgeNumbers_eq, suffixesSame, ← Verdict.ofOrder_then]

/-- Comparing texts succeeds exactly if both are versions, with what the operator
accepts. -/
theorem holdsSimple_eq_ok_iff
    {left right : String}
    {accepted : Bool} :
    holdsSimple left operator right = .ok accepted ↔
      ∃ own other, parse left = .ok own ∧ parse right = .ok other
        ∧ operator.accepts (own.order other) = accepted := by
  simp only [holdsSimple, Outcome.bind_eq_ok, Outcome.pure_eq_ok, judge_eq,
    Verdict.isAccepted_ofOrder]
  constructor
  · rintro ⟨own, isOwn, other, isOther, isAccepted⟩
    exact ⟨own, other, isOwn, isOther, isAccepted⟩
  · rintro ⟨own, other, isOwn, isOther, isAccepted⟩
    exact ⟨own, isOwn, other, isOther, isAccepted⟩

/-- Texts of versions are compared, with what the operator accepts. -/
theorem holds_eq_ok
    {left right : String}
    {own other : Simple}
    (isOwn : parse left = .ok own)
    (isOther : parse right = .ok other)
    (operator : Operator) :
    holds left operator right .simple = .ok (operator.accepts (own.order other)) :=
  holdsSimple_eq_ok_iff.mpr ⟨own, other, isOwn, isOther, rfl⟩

/-! ## Separators -/

/-- A text with both separators has more pieces than a version. -/
theorem Simple.lt_length_pieces
    {text : List Char}
    (hasPlus : '+' ∈ text)
    (hasMinus : '-' ∈ text) :
    2 < (Text.pieces isSeparator text).length := by
  have isPart : ['+', '-'].Subperm text :=
    List.subperm_of_subset (by decide) (by simp [hasPlus, hasMinus])
  have counted : ['+', '-'].countP isSeparator ≤ text.countP isSeparator :=
    isPart.countP_le isSeparator
  rw [Text.length_pieces]
  exact Nat.lt_succ_of_le counted

/-- Whether a text is a version, and which, only depends on its pieces. -/
theorem Simple.parseChars_eq_ok_of_pieces
    {left right : List Char}
    {version : Simple}
    (samePieces : Text.pieces isSeparator left = Text.pieces isSeparator right)
    (isRead : parseChars left = .ok version) :
    parseChars right = .ok version := by
  unfold parseChars at isRead
  split at isRead
  · cases isRead
  · have isShort : (Text.pieces isSeparator right).length ≤ 2 := by
      rw [← samePieces]
      split at isRead
      case h_1 onePiece => simp [onePiece]
      case h_2 twoPieces => simp [twoPieces]
      case h_3 => cases isRead
    unfold parseChars
    rw [if_neg fun both => (lt_length_pieces both.1 both.2).not_ge isShort,
      ← samePieces]
    exact isRead

/-- It is no matter which separator stands before the suffix. -/
theorem parse_separator (core suffix : String) (version : Simple) :
    parse (core ++ "+" ++ suffix) = .ok version ↔
      parse (core ++ "-" ++ suffix) = .ok version := by
  have pieces {separator : Char} (separates : Simple.isSeparator separator = true) :
      Text.pieces Simple.isSeparator (core.toList ++ separator :: suffix.toList) =
        Text.pieces Simple.isSeparator core.toList
          ++ Text.pieces Simple.isSeparator suffix.toList :=
    Text.pieces_append_cons separates core.toList suffix.toList
  have plus : Simple.isSeparator '+' = true := by decide
  have minus : Simple.isSeparator '-' = true := by decide
  simp only [parse, Outcome.mapError_eq_ok, Simple.parse, String.toList_append,
    List.append_assoc]
  exact ⟨Simple.parseChars_eq_ok_of_pieces ((pieces plus).trans (pieces minus).symm),
    Simple.parseChars_eq_ok_of_pieces ((pieces minus).trans (pieces plus).symm)⟩

/-! ## Consistency -/

/-- The six operators fit together on two texts. -/
structure OperatorsAgree (left right : String) : Prop where
  /-- What is less is not greater or equal. -/
  less :
    holds left .less right .simple =
      (holds left .greaterOrEqual right .simple).map not
  /-- What is greater than another is what the other is less than. -/
  greater : holds left .greater right .simple = holds right .less left .simple
  /-- What is less or equal is less, or is equal. -/
  lessOrEqual :
    holds left .lessOrEqual right .simple = .ok true ↔
      holds left .less right .simple = .ok true
        ∨ holds left .equal right .simple = .ok true
  /-- What is unequal is not equal. -/
  notEqual :
    holds left .notEqual right .simple =
      (holds left .equal right .simple).map not

theorem operatorsAgree
    {left right : String}
    {own other : Simple}
    (isOwn : parse left = .ok own)
    (isOther : parse right = .ok other) :
    OperatorsAgree left right := by
  have swapped : other.order own = (own.order other).swap := Std.OrientedCmp.eq_swap
  constructor <;>
    simp only [holds_eq_ok isOwn isOther, holds_eq_ok isOther isOwn, swapped] <;>
    cases own.order other <;> simp [Operator.accepts, Except.map]

/-- One total preorder is behind all comparisons of version texts. It goes by the
cores continued with zeros and then by the suffixes, whatever separates them; and
what the operators accept of it fits together, on two versions and along three. -/
theorem holds_total_preorder
    {first second third : String}
    {one two three : Simple}
    (isFirst : parse first = .ok one)
    (isSecond : parse second = .ok two)
    (isThird : parse third = .ok three) :
    -- What is compared, and in which order.
    (∀ operator, holds first operator second .simple =
        .ok (operator.accepts (one.order two)))
      ∧ (one.order two).Compares one.key two.key
      ∧ (∀ core suffix version, parse (core ++ "+" ++ suffix) = .ok version ↔
          parse (core ++ "-" ++ suffix) = .ok version)
      -- The order is reflexive, total, antisymmetric and transitive.
      ∧ one.order one = .eq
      ∧ two.order one = (one.order two).swap
      ∧ (one.order two ≠ .gt ∨ two.order one ≠ .gt)
      ∧ (one.order two ≠ .gt -> two.order one ≠ .gt -> one.order two = .eq)
      ∧ (one.order two ≠ .gt -> two.order three ≠ .gt -> one.order three ≠ .gt)
      -- The operators agree, and chain.
      ∧ OperatorsAgree first second
      ∧ (holds first .less second .simple = .ok true ->
          holds second .less third .simple = .ok true ->
          holds first .less third .simple = .ok true)
      ∧ (holds first .lessOrEqual second .simple = .ok true ->
          holds second .lessOrEqual third .simple = .ok true ->
          holds first .lessOrEqual third .simple = .ok true) := by
  have swapped : two.order one = (one.order two).swap := Std.OrientedCmp.eq_swap
  have chains : one.order two ≠ .gt -> two.order three ≠ .gt ->
      one.order three ≠ .gt := by
    simp only [ne_eq, Ordering.ne_gt_iff_isLE]
    exact Std.TransCmp.isLE_trans
  refine ⟨holds_eq_ok isFirst isSecond, Simple.compares_order one two, parse_separator,
    Simple.order_self one, swapped, ?_, ?_, chains, operatorsAgree isFirst isSecond,
    ?_, ?_⟩
  · rw [swapped]
    cases one.order two <;> simp
  · rw [swapped]
    cases one.order two <;> simp
  · simpa [holds_eq_ok isFirst isSecond, holds_eq_ok isSecond isThird,
      holds_eq_ok isFirst isThird, Operator.accepts] using Std.TransCmp.lt_trans
  · simpa [holds_eq_ok isFirst isSecond, holds_eq_ok isSecond isThird,
      holds_eq_ok isFirst isThird, Operator.accepts] using chains

/-- Three versions with equal cores, of which two have a suffix. -/
theorem holds_total_preorder_suffixes :
    (∀ operator, holds "1" operator "001.0-2" .simple = .ok (operator.accepts .lt))
      ∧ OperatorsAgree "1" "001.0-2"
      ∧ holds "1" .less "1.0.0+10" .simple = .ok true := by
  have isFirst : parse "1" = .ok ⟨[1], none⟩ :=
    Outcome.eq_ok_of_toOption (by decide +kernel)
  have isSecond : parse "001.0-2" = .ok ⟨[1, 0], some [2]⟩ :=
    Outcome.eq_ok_of_toOption (by decide +kernel)
  have isThird : parse "1.0.0+10" = .ok ⟨[1, 0, 0], some [10]⟩ :=
    Outcome.eq_ok_of_toOption (by decide +kernel)
  obtain ⟨accepted, -, -, -, -, -, -, -, agree, chains, -⟩ :=
    holds_total_preorder isFirst isSecond isThird
  exact ⟨accepted, agree,
    chains (accepted .less) (holds_eq_ok isSecond isThird .less)⟩

end Version
end PackageFlags
