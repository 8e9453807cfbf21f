import PackageFlags.Description.Properties
import PackageFlags.Proofs.Runs

/-!
# Lines and values

What a line of a description says, the one way to take it for a name, a sign and a
value, and the one way to cut a value at the variables that it uses.
-/

namespace PackageFlags

namespace Description

/-! ## Lines -/

namespace Line

open Text (AreBlank IsTrimmed)

variable {written content : List Char} {line : Line} {c : Char}

/-- What a line says: its text in front of the first `#`, without the blanks around
it. -/
def Says (written content : List Char) : Prop :=
  IsTrimmed content ∧ ∃ before after comment, AreBlank before ∧ AreBlank after
    ∧ '#' ∉ before ++ content ++ after ∧ (∀ c ∈ comment.head?, c = '#')
    ∧ written = before ++ content ++ after ++ comment

theorem says_iff : Says written content ↔ Line.content written = content := by
  unfold Line.content
  constructor
  · rintro ⟨isTrimmed, before, after, comment, areBefore, areAfter, notInside,
      isComment, rfl⟩
    have notMarks : ∀ c ∈ before ++ content ++ after, decide (c ≠ '#') = true :=
      fun c isInside => decide_eq_true fun isMark => notInside (isMark ▸ isInside)
    have isMark : ∀ c ∈ comment.head?, decide (c ≠ '#') = false := by
      intro c isNext
      simpa using isComment c isNext
    rw [Text.takeWhile_append_of_head? notMarks isMark, Text.trimBlanks_eq_iff]
    exact ⟨isTrimmed, before, after, areBefore, areAfter, rfl⟩
  · intro isContent
    obtain ⟨isTrimmed, before, after, areBefore, areAfter, isStated⟩ :=
      Text.trimBlanks_eq_iff.mp isContent
    refine ⟨isTrimmed, before, after, written.dropWhile (· ≠ '#'), areBefore, areAfter,
      ?_, ?_, ?_⟩
    · rw [← isStated]
      intro isInside
      simpa using List.mem_takeWhile_imp isInside
    · intro c isNext
      simpa using Text.head?_dropWhile_stops (· ≠ '#') written c isNext
    · rw [← isStated, List.takeWhile_append_dropWhile]

/-- The sign behind a name. -/
def signOf : Assignment -> Char
  | .variable => '='
  | .property => ':'

/-- A text takes the form of a line: a name, a sign that says what it is, and a value,
with any blanks around them. -/
inductive Spells : List Char -> Line -> Prop
  | intro
      {name gap before value after : List Char}
      (assignment : Assignment)
      (isSome : name ≠ [])
      (areNameChars : ∀ c ∈ name, isNameChar c = true)
      (areGap : AreBlank gap)
      (areBefore : AreBlank before)
      (isTrimmed : IsTrimmed value)
      (areAfter : AreBlank after) :
      Spells (name ++ (gap ++ signOf assignment :: (before ++ value ++ after)))
        { name := String.ofList name, assignment, value }

theorem assignmentOf?_eq_some_iff {assignment : Assignment} :
    assignmentOf? c = some assignment ↔ c = signOf assignment := by
  constructor
  · intro isSign
    unfold assignmentOf? at isSign
    split at isSign <;> cases isSign <;> rfl
  · rintro rfl
    cases assignment <;> rfl

theorem toNat_of_isNameChar (isPart : isNameChar c = true) :
    46 ≤ c.toNat ∧ c.toNat ≤ 122 := by
  have within : ∀ first last : Char, first.val ≤ c.val ∧ c.val ≤ last.val →
      46 ≤ first.toNat ∧ last.toNat ≤ 122 → 46 ≤ c.toNat ∧ c.toNat ≤ 122 :=
    fun first last bounds wide =>
      ⟨Nat.le_trans wide.1 (UInt32.le_iff_toNat_le.mp bounds.1),
        Nat.le_trans (UInt32.le_iff_toNat_le.mp bounds.2) wide.2⟩
  simp only [isNameChar, Bool.or_eq_true, decide_eq_true_eq] at isPart
  rcases isPart with (isAlphanum | rfl) | rfl
  · rcases Bool.or_eq_true_iff.mp isAlphanum with isAlpha | isDigit
    · rcases Bool.or_eq_true_iff.mp isAlpha with isUpper | isLower
      · exact within 'A' 'Z' (of_decide_eq_true isUpper) (by decide)
      · exact within 'a' 'z' ((Bool.and_eq_true_iff.mp isLower).imp of_decide_eq_true
          of_decide_eq_true) (by decide)
    · exact within '0' '9' ((Bool.and_eq_true_iff.mp isDigit).imp of_decide_eq_true
        of_decide_eq_true) (by decide)
  · decide
  · decide

/-- No blank is part of a name. -/
theorem isNameChar_of_isBlank (isBlank : Text.isBlank c = true) : isNameChar c = false := by
  rw [Bool.eq_false_iff]
  intro isPart
  have bounds := toNat_of_isNameChar isPart
  simp only [Text.isBlank, Text.blankRanges, List.any_cons, List.any_nil, Bool.or_eq_true,
    Bool.and_eq_true, decide_eq_true_eq, Bool.false_eq_true, or_false] at isBlank
  omega

/-- A text that has the form of a line is read as that line. -/
theorem Spells.parse_eq (spells : Spells content line) : parse content = some line := by
  obtain ⟨assignment, isSome, areNameChars, areGap, areBefore, isTrimmed, areAfter⟩ :=
    spells
  rename_i name gap before value after
  have signEnds : ∀ c ∈ (signOf assignment :: (before ++ value ++ after)).head?,
      Text.isBlank c = false := by
    rintro _ ⟨⟩
    cases assignment <;> decide
  have nameEnds : ∀ c ∈ (gap ++ signOf assignment :: (before ++ value ++ after)).head?,
      isNameChar c = false := by
    cases gap with
    | nil =>
        rintro _ ⟨⟩
        cases assignment <;> decide
    | cons c gap =>
        rintro _ ⟨⟩
        exact isNameChar_of_isBlank (areGap c List.mem_cons_self)
  have isValue : Text.trimBlanks (before ++ value ++ after) = value :=
    Text.trimBlanks_eq_iff.mpr ⟨isTrimmed, before, after, areBefore, areAfter, rfl⟩
  obtain ⟨c, name, rfl⟩ := List.exists_cons_of_ne_nil isSome
  simp only [parse, Text.takeWhile_append_of_head? areNameChars nameEnds,
    Text.dropWhile_append_of_head? areNameChars nameEnds,
    Text.dropWhile_append_of_head? areGap signEnds,
    assignmentOf?_eq_some_iff.mpr rfl, Option.map_some, isValue]

theorem spells_of_parse (isRead : parse content = some line) : Spells content line := by
  unfold parse at isRead
  split at isRead
  · contradiction
  · rename_i isSome
    split at isRead
    · contradiction
    · rename_i sign rest isSign
      obtain ⟨assignment, isAssignment, rfl⟩ := Option.map_eq_some_iff.mp isRead
      cases assignmentOf?_eq_some_iff.mp isAssignment
      obtain ⟨isTrimmed, before, after, areBefore, areAfter, isRest⟩ :=
        Text.trimBlanks_eq_iff.mp (Eq.refl (Text.trimBlanks rest))
      have isContent : content = content.takeWhile isNameChar
          ++ ((content.dropWhile isNameChar).takeWhile Text.isBlank
            ++ (content.dropWhile isNameChar).dropWhile Text.isBlank) := by
        rw [List.takeWhile_append_dropWhile, List.takeWhile_append_dropWhile]
      rw [isSign, isRest] at isContent
      have areGap : AreBlank ((content.dropWhile isNameChar).takeWhile Text.isBlank) :=
        fun _ => List.mem_takeWhile_imp
      have isSpelled := Spells.intro assignment isSome (fun _ => List.mem_takeWhile_imp)
        areGap areBefore isTrimmed areAfter
      rwa [← isContent] at isSpelled

/-- A text is read as the line that it has the form of, which is one alone. -/
theorem spells_iff : Spells content line ↔ parse content = some line :=
  ⟨Spells.parse_eq, spells_of_parse⟩

/-- What a written line says has the form of a line. -/
def Writes (written : List Char) (line : Line) : Prop :=
  ∃ content, Says written content ∧ Spells content line

theorem writes_iff : Writes written line ↔ parse (Line.content written) = some line := by
  simp only [Writes, says_iff, spells_iff, exists_eq_left']

theorem Says.not_writes (isBlank : Says written []) (line : Line) :
    ¬ Writes written line := by
  rw [writes_iff, says_iff.mp isBlank]
  nofun

end Line

/-! ## Uses of variables -/

variable {value name rest : List Char} {parts : List Part} {size : Nat}

/-- A text starts with the use of a variable: its name, which has no closing brace in
it, in braces behind a dollar sign. -/
def StartsUse (text : List Char) : Prop :=
  ∃ name rest, '\x7d' ∉ name ∧ text = '$' :: '\x7b' :: (name ++ '\x7d' :: rest)

/-- The parts of a value from left to right. Wherever the use of a variable starts it is
one part, and what follows it is behind its closing brace. -/
inductive Splits : List Char -> List Part -> Prop
  | nil : Splits [] []
  | usage
      {name rest : List Char}
      {parts : List Part}
      (isName : '\x7d' ∉ name)
      (isRest : Splits rest parts) :
      Splits ('$' :: '\x7b' :: (name ++ '\x7d' :: rest))
        (.variable (String.ofList name) :: parts)
  | character
      {c : Char}
      {rest : List Char}
      {parts : List Part}
      (notUse : ¬ StartsUse (c :: rest))
      (isRest : Splits rest parts) :
      Splits (c :: rest) (.character c :: parts)

theorem untilBrace_eq_some_iff :
    untilBrace value = some (name, size) ↔
      '\x7d' ∉ name ∧ size = name.length + 1 ∧ ∃ rest, value = name ++ '\x7d' :: rest := by
  induction value generalizing name size with
  | nil => simp [untilBrace]
  | cons c value valueCut =>
      unfold untilBrace
      by_cases isBrace : c = '\x7d'
      · subst isBrace
        rw [if_pos rfl]
        constructor
        · rintro ⟨⟩
          exact ⟨nofun, rfl, value, rfl⟩
        · rintro ⟨notInside, rfl, rest, isSplit⟩
          cases name with
          | nil => rfl
          | cons first name =>
              cases isSplit
              exact absurd List.mem_cons_self notInside
      · rw [if_neg isBrace, Option.map_eq_some_iff]
        constructor
        · rintro ⟨⟨later, shorter⟩, isCut, ⟨⟩⟩
          obtain ⟨notInside, rfl, rest, rfl⟩ := valueCut.mp isCut
          refine ⟨?_, rfl, rest, rfl⟩
          exact List.not_mem_cons_of_ne_of_not_mem (Ne.symm isBrace) notInside
        · rintro ⟨notInside, rfl, rest, isSplit⟩
          cases name with
          | nil =>
              cases isSplit
              contradiction
          | cons first name =>
              cases isSplit
              have notLater : '\x7d' ∉ name :=
                fun isInside => notInside (List.mem_cons_of_mem _ isInside)
              exact ⟨(name, name.length + 1), valueCut.mpr ⟨notLater, rfl, rest, rfl⟩, rfl⟩

/-- Characters that are passed over make no parts. -/
theorem partsAfter_append (passed rest : List Char) :
    partsAfter passed.length (passed ++ rest) = Description.parts rest := by
  induction passed with
  | nil => rfl
  | cons c passed restSame => exact restSame

theorem parts_variable (isName : '\x7d' ∉ name) (rest : List Char) :
    Description.parts ('$' :: '\x7b' :: (name ++ '\x7d' :: rest)) =
      .variable (String.ofList name) :: Description.parts rest := by
  have isCut : untilBrace (name ++ '\x7d' :: rest) = some (name, name.length + 1) :=
    untilBrace_eq_some_iff.mpr ⟨isName, rfl, rest, rfl⟩
  have isPassed := partsAfter_append ('\x7b' :: (name ++ ['\x7d'])) rest
  simp only [List.length_cons, List.length_append, List.length_nil, List.cons_append,
    List.append_assoc, List.nil_append] at isPassed
  rw [Description.parts, partsAfter, if_pos ⟨rfl, rfl⟩, List.tail_cons, isCut]
  simp only [← isPassed]

theorem parts_character {c : Char} (notUse : ¬ StartsUse (c :: rest)) :
    Description.parts (c :: rest) = .character c :: Description.parts rest := by
  rw [Description.parts, partsAfter]
  split
  · rename_i opens
    obtain ⟨rfl, opensBrace⟩ := opens
    obtain ⟨behind, rfl⟩ := List.head?_eq_some_iff.mp opensBrace
    cases isCut : untilBrace behind with
    | none => simp only [List.tail_cons, isCut, Description.parts]
    | some cut =>
        obtain ⟨notInside, -, more, rfl⟩ := untilBrace_eq_some_iff.mp isCut
        exact absurd ⟨cut.1, more, notInside, rfl⟩ notUse
  · rfl

theorem Splits.parts_eq (splits : Splits value parts) :
    Description.parts value = parts := by
  induction splits with
  | nil => rfl
  | usage isName _ restSame => rw [parts_variable isName, restSame]
  | character notUse _ restSame => rw [parts_character notUse, restSame]

/-- Every value has parts. -/
theorem exists_splits (value : List Char) : ∃ parts, Splits value parts := by
  -- the first character or use of a variable is taken off
  induction isLength : value.length using Nat.strong_induction_on generalizing value with
  | _ length shorter =>
    subst isLength
    cases value with
    | nil => exact ⟨[], .nil⟩
    | cons c rest =>
        by_cases isUse : StartsUse (c :: rest)
        · obtain ⟨name, behind, isName, isSplit⟩ := isUse
          have isShorter : behind.length < (c :: rest).length := by
            rw [isSplit]
            simp only [List.length_cons, List.length_append]
            omega
          obtain ⟨parts, isBehind⟩ := shorter behind.length isShorter behind rfl
          rw [isSplit]
          exact ⟨_, .usage isName isBehind⟩
        · obtain ⟨parts, isRest⟩ := shorter rest.length (Nat.lt_succ_self _) rest rfl
          exact ⟨_, .character isUse isRest⟩

/-- A value is cut in one way. -/
theorem splits_iff : Splits value parts ↔ parts = Description.parts value := by
  constructor
  · exact fun splits => splits.parts_eq.symm
  · rintro rfl
    obtain ⟨parts, splits⟩ := exists_splits value
    rw [splits.parts_eq]
    exact splits

end Description
end PackageFlags
