import Mathlib.Data.Nat.Digits.Defs
import PackageFlags.Proofs.Version.Verdicts

/-!
# The grammar of versions

A version is a dotted list of numerals, which one separator and a second dotted list
may follow. The texts of this form whose numbers fit 64 bits are exactly those that
are compared, by the numbers that they write in base ten. The failure on any other
text names the left one if that is malformed, and the right one if it is not.
-/

namespace PackageFlags
namespace Version

/-! ## What is written -/

/-- The digit that a character stands for. -/
def digit (c : Char) : Nat := c.toNat - '0'.toNat

/-- The number that digits write in base ten. -/
def decimal (digits : List Char) : Nat :=
  Nat.ofDigits 10 (digits.map digit).reverse

/-- Digits write a number that fits 64 bits. Zeros may lead them. -/
structure Numeral (text : List Char) (number : Nat) : Prop where
  /-- There is a digit. -/
  isSome : text ≠ []
  /-- There are only digits. -/
  areDigits : ∀ c ∈ text, c.isDigit = true
  /-- The number is the one in base ten. -/
  isNumber : number = decimal text
  /-- The number fits. -/
  fits : number < 2 ^ 64

/-- Numerals with a dot between neighbours write numbers. -/
inductive Dotted : List Char -> List Nat -> Prop
  | last
      {numeral : List Char}
      {number : Nat}
      (isNumeral : Numeral numeral number) :
      Dotted numeral [number]
  | more
      {numeral rest : List Char}
      {number : Nat}
      {numbers : List Nat}
      (isNumeral : Numeral numeral number)
      (isRest : Dotted rest numbers) :
      Dotted (numeral ++ '.' :: rest) (number :: numbers)

/-- A text writes a version: its core, and behind a separator its suffix. -/
inductive Writes : List Char -> Simple -> Prop
  | core
      {text : List Char}
      {core : List Nat}
      (isCore : Dotted text core) :
      Writes text ⟨core, none⟩
  | suffix
      {before after : List Char}
      {core suffix : List Nat}
      (isCore : Dotted before core)
      {separator : Char}
      (isSeparator : separator = '+' ∨ separator = '-')
      (isSuffix : Dotted after suffix) :
      Writes (before ++ separator :: after) ⟨core, some suffix⟩

/-- A text is a version. -/
def IsVersion (text : String) : Prop :=
  ∃ version, Writes text.toList version

/-! ## Numerals -/

variable {text : List Char} {number : Nat} {numbers : List Nat}

theorem decimal_cons (c : Char) (rest : List Char) :
    decimal (c :: rest) = digit c * 10 ^ rest.length + decimal rest := by
  unfold decimal
  rw [List.map_cons, Nat.ofDigits_reverse_cons, List.length_map, Nat.add_comm,
    Nat.mul_comm]

namespace Simple

/-- Digits are added to a value exactly if they are digits and the number that they make
of it fits; no value on the way is greater. -/
theorem addDigits_eq_ok_iff {segment : List Char} {value : Nat} (fits : value < 2 ^ 64) :
    addDigits segment value text = .ok number ↔
      (∀ c ∈ text, c.isDigit = true)
        ∧ number = value * 10 ^ text.length + decimal text
        ∧ number < 2 ^ 64 := by
  induction text generalizing value with
  | nil =>
      have noDigits : decimal [] = 0 := rfl
      simp only [addDigits, Except.ok.injEq, List.not_mem_nil, false_implies,
        implies_true, true_and, List.length_nil, noDigits]
      omega
  | cons c rest restAdded =>
      have grows : value * 10 ^ (c :: rest).length + decimal (c :: rest) =
          (value * 10 + digit c) * 10 ^ rest.length + decimal rest := by
        rw [decimal_cons, List.length_cons, Nat.pow_succ]
        ring
      have noLess : value * 10 + digit c ≤
          (value * 10 + digit c) * 10 ^ rest.length + decimal rest :=
        Nat.le_add_right_of_le (Nat.le_mul_of_pos_right _ (Nat.pow_pos (by decide)))
      rw [grows, List.forall_mem_cons]
      unfold addDigits
      by_cases isDigit : c.isDigit = true
      · by_cases fitsNext : value * 10 + digit c < 2 ^ 64
        · have isSmall : value * 10 + (c.toNat - '0'.toNat) ≤ largest :=
            Nat.le_sub_one_of_lt fitsNext
          rw [if_pos isDigit]
          simp only [if_pos isSmall, isDigit, true_and]
          exact restAdded fitsNext
        · have isLarge : ¬ value * 10 + (c.toNat - '0'.toNat) ≤ largest :=
            fun isSmall => fitsNext (Nat.lt_of_le_sub_one (by decide) isSmall)
          rw [if_pos isDigit]
          simp only [if_neg isLarge, reduceCtorEq, false_iff]
          rintro ⟨-, rfl, fitsAll⟩
          exact fitsNext (noLess.trans_lt fitsAll)
      · rw [if_neg isDigit]
        simp [isDigit]

/-- A segment is read as the number that it writes. -/
theorem parseNumber_eq_ok_iff :
    parseNumber text = .ok number ↔ Numeral text number := by
  unfold parseNumber
  by_cases isEmpty : text = []
  · subst isEmpty
    simp only [List.isEmpty_nil, if_true, reduceCtorEq, false_iff]
    exact fun isNumeral => isNumeral.isSome rfl
  · rw [if_neg (by simpa using isEmpty), addDigits_eq_ok_iff (by decide), Nat.zero_mul,
      Nat.zero_add]
    exact ⟨fun ⟨areDigits, isNumber, fits⟩ => ⟨isEmpty, areDigits, isNumber, fits⟩,
      fun ⟨_, areDigits, isNumber, fits⟩ => ⟨areDigits, isNumber, fits⟩⟩

end Simple

/-- A numeral has neither a dot nor a separator in it. -/
theorem Numeral.isPlain
    (isNumeral : Numeral text number)
    {c : Char}
    (isInside : c ∈ text) :
    c ≠ '.' ∧ Simple.isSeparator c = false := by
  have isDigit := isNumeral.areDigits c isInside
  refine ⟨?_, ?_⟩
  · rintro rfl
    exact absurd isDigit (by decide)
  · rw [Bool.eq_false_iff]
    intro isSeparator
    rcases Bool.or_eq_true_iff.mp isSeparator with isPlus | isMinus
    · rw [of_decide_eq_true isPlus] at isDigit
      exact absurd isDigit (by decide)
    · rw [of_decide_eq_true isMinus] at isDigit
      exact absurd isDigit (by decide)

/-! ## Dotted lists -/

/-- A dotted list has no separator in it. -/
theorem Dotted.isPlain
    (isDotted : Dotted text numbers)
    {c : Char}
    (isInside : c ∈ text) :
    Simple.isSeparator c = false := by
  induction isDotted with
  | last isNumeral => exact (isNumeral.isPlain isInside).2
  | more isNumeral _ restPlain =>
      rcases List.mem_append.mp isInside with isFirst | isLater
      · exact (isNumeral.isPlain isFirst).2
      · rcases List.mem_cons.mp isLater with rfl | isRest
        · decide
        · exact restPlain isRest

/-- A numeral is its only piece between dots. -/
theorem Numeral.pieces_eq (isNumeral : Numeral text number) :
    Text.pieces (· = '.') text = [text] :=
  Text.pieces_eq_singleton fun _ isInside =>
    decide_eq_false (isNumeral.isPlain isInside).1

namespace Simple

/-- A dotted list is read as the numbers that it writes. -/
theorem parseNumbers_eq_ok_iff :
    parseNumbers text = .ok numbers ↔ Dotted text numbers := by
  unfold parseNumbers
  constructor
  · intro isRead
    generalize areCut : Text.pieces (· = '.') text = segments at isRead
    induction segments generalizing text numbers with
    | nil => exact absurd areCut (Text.pieces_ne_nil _ text)
    | cons segment rest restRead =>
        rw [List.mapM_cons] at isRead
        obtain ⟨number, isNumber, isMore⟩ := Outcome.bind_eq_ok.mp isRead
        obtain ⟨others, areOthers, same⟩ := Outcome.bind_eq_ok.mp isMore
        cases same
        have isNumeral := parseNumber_eq_ok_iff.mp isNumber
        cases rest with
        | nil =>
            cases areOthers
            obtain ⟨rfl, -⟩ := Text.eq_of_pieces_eq_singleton areCut
            exact .last isNumeral
        | cons next more =>
            obtain ⟨dot, behind, isDot, rfl, areMore⟩ :=
              Text.exists_of_pieces_eq_cons areCut
            rw [of_decide_eq_true isDot]
            exact .more isNumeral (restRead areMore areOthers)
  · intro isDotted
    induction isDotted with
    | last isNumeral =>
        rw [isNumeral.pieces_eq, List.mapM_cons, parseNumber_eq_ok_iff.mpr isNumeral]
        rfl
    | more isNumeral _ restRead =>
        rw [Text.pieces_append_cons (by decide), isNumeral.pieces_eq, List.singleton_append,
          List.mapM_cons, parseNumber_eq_ok_iff.mpr isNumeral, restRead]
        rfl

/-! ## Versions -/

/-- A text is read as the version that it writes. -/
theorem parseChars_eq_ok_iff {version : Simple} :
    parseChars text = .ok version ↔ Writes text version := by
  constructor
  · intro isRead
    unfold parseChars at isRead
    split at isRead
    · contradiction
    · split at isRead
      case h_1 core isOnly =>
        obtain ⟨numbers, areNumbers, same⟩ := Outcome.bind_eq_ok.mp isRead
        cases same
        obtain ⟨rfl, -⟩ := Text.eq_of_pieces_eq_singleton isOnly
        exact .core (parseNumbers_eq_ok_iff.mp areNumbers)
      case h_2 core suffix areTwo =>
        obtain ⟨numbers, areNumbers, isMore⟩ := Outcome.bind_eq_ok.mp isRead
        obtain ⟨others, areOthers, same⟩ := Outcome.bind_eq_ok.mp isMore
        cases same
        obtain ⟨separator, behind, separates, rfl, isBehind⟩ :=
          Text.exists_of_pieces_eq_cons areTwo
        obtain ⟨rfl, -⟩ := Text.eq_of_pieces_eq_singleton isBehind
        refine .suffix (parseNumbers_eq_ok_iff.mp areNumbers) ?_
          (parseNumbers_eq_ok_iff.mp areOthers)
        simpa [isSeparator] using separates
      case h_3 => contradiction
  · intro isWritten
    cases isWritten with
    | core isCore =>
        have isOnly : Text.pieces isSeparator text = [text] :=
          Text.pieces_eq_singleton fun _ => isCore.isPlain
        have notBoth : ¬ ('+' ∈ text ∧ '-' ∈ text) := fun both => by
          simpa [isOnly] using lt_length_pieces both.1 both.2
        rw [parseChars, if_neg notBoth, isOnly]
        simp only [parseNumbers_eq_ok_iff.mpr isCore]
        rfl
    | @suffix before after core suffix isCore separator separates isSuffix =>
        have separates : isSeparator separator = true := by
          rcases separates with rfl | rfl <;> decide
        have areTwo : Text.pieces isSeparator (before ++ separator :: after) =
            [before, after] := by
          rw [Text.pieces_append_cons separates,
            Text.pieces_eq_singleton fun _ => isCore.isPlain,
            Text.pieces_eq_singleton fun _ => isSuffix.isPlain]
          rfl
        have notBoth : ¬ ('+' ∈ before ++ separator :: after
            ∧ '-' ∈ before ++ separator :: after) := fun both => by
          simpa [areTwo] using lt_length_pieces both.1 both.2
        rw [parseChars, if_neg notBoth, areTwo]
        simp only [parseNumbers_eq_ok_iff.mpr isCore, parseNumbers_eq_ok_iff.mpr isSuffix]
        rfl

end Simple

theorem parse_eq_ok_iff {text : String} {version : Simple} :
    parse text = .ok version ↔ Writes text.toList version := by
  rw [parse, Outcome.mapError_eq_ok, Simple.parse, Simple.parseChars_eq_ok_iff]

/-- A text that is no version is named in the failure to read it. -/
theorem exists_parse_eq_error {text : String} (notVersion : ¬ IsVersion text) :
    ∃ flaw, parse text = .error (.invalidVersion text flaw) := by
  cases isRead : Simple.parse text with
  | ok version =>
      exact absurd ⟨version, Simple.parseChars_eq_ok_iff.mp isRead⟩ notVersion
  | error flaw => exact ⟨flaw, by rw [parse, isRead]; rfl⟩

/-! ## Comparing -/

/-- Two texts are compared exactly if both are versions, and then by the numbers that
they write. Otherwise the failure names the left text if that is no version, and the
right one if only that is none; no difference found earlier hides it. -/
theorem holds_ok_iff_isVersion (left right : String) (operator : Operator) :
    (∀ accepted, holds left operator right .simple = .ok accepted ↔
        ∃ own other, Writes left.toList own ∧ Writes right.toList other
          ∧ operator.accepts (own.order other) = accepted)
      ∧ ((∃ accepted, holds left operator right .simple = .ok accepted) ↔
          IsVersion left ∧ IsVersion right)
      ∧ ((∃ flaw, holds left operator right .simple =
            .error (.invalidVersion left flaw)) ↔ ¬ IsVersion left)
      ∧ (IsVersion left →
          ((∃ flaw, holds left operator right .simple =
            .error (.invalidVersion right flaw)) ↔ ¬ IsVersion right)) := by
  have compared : ∀ accepted, holds left operator right .simple = .ok accepted ↔
      ∃ own other, Writes left.toList own ∧ Writes right.toList other
        ∧ operator.accepts (own.order other) = accepted := by
    simp only [← parse_eq_ok_iff]
    exact fun _ => holdsSimple_eq_ok_iff
  have leftFails : ¬ IsVersion left → ∃ flaw, holds left operator right .simple =
      .error (.invalidVersion left flaw) := by
    intro notVersion
    obtain ⟨flaw, isFlaw⟩ := exists_parse_eq_error notVersion
    exact ⟨flaw, Outcome.bind_eq_error.mpr (.inl isFlaw)⟩
  have rightFails : IsVersion left → ¬ IsVersion right →
      ∃ flaw, holds left operator right .simple =
        .error (.invalidVersion right flaw) := by
    rintro ⟨own, isOwn⟩ notVersion
    obtain ⟨flaw, isFlaw⟩ := exists_parse_eq_error notVersion
    exact ⟨flaw, Outcome.bind_eq_error.mpr (.inr ⟨own, parse_eq_ok_iff.mpr isOwn,
      Outcome.bind_eq_error.mpr (.inl isFlaw)⟩)⟩
  have succeeds : IsVersion left → IsVersion right →
      ∃ accepted, holds left operator right .simple = .ok accepted := by
    rintro ⟨own, isOwn⟩ ⟨other, isOther⟩
    exact ⟨_, (compared _).mpr ⟨own, other, isOwn, isOther, rfl⟩⟩
  refine ⟨compared, ?_, ⟨?_, leftFails⟩, fun isLeft => ⟨?_, rightFails isLeft⟩⟩
  · constructor
    · rintro ⟨accepted, isAccepted⟩
      obtain ⟨own, other, isOwn, isOther, -⟩ := (compared accepted).mp isAccepted
      exact ⟨⟨own, isOwn⟩, ⟨other, isOther⟩⟩
    · exact fun ⟨isLeft, isRight⟩ => succeeds isLeft isRight
  · rintro ⟨flaw, fails⟩ isLeft
    by_cases isRight : IsVersion right
    · obtain ⟨accepted, isAccepted⟩ := succeeds isLeft isRight
      cases isAccepted.symm.trans fails
    · -- the right text is named, which is another one than the left
      obtain ⟨other, failsRight⟩ := rightFails isLeft isRight
      cases failsRight.symm.trans fails
      exact isRight isLeft
  · rintro ⟨flaw, fails⟩ isRight
    obtain ⟨accepted, isAccepted⟩ := succeeds isLeft isRight
    cases isAccepted.symm.trans fails

/-- A suffix is read although the cores differ. -/
example : holds "2" .less "1-18446744073709551616" .simple =
    .error (.invalidVersion "1-18446744073709551616"
      (.tooLarge "18446744073709551616")) := by
  rfl

end Version
end PackageFlags
