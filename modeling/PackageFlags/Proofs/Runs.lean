import Mathlib.Data.List.DropRight
import Mathlib.Data.List.TakeWhile
import PackageFlags.Text.Blank

/-!
# Runs of characters

The characters of a kind that a text begins with, what is left of a text without the
blanks at its ends, and the words that the blanks in a text keep apart.
-/

namespace PackageFlags
namespace Text

section Cutting

variable {holds : Char -> Bool} {first rest : List Char}

/-- The characters of a kind at the beginning of a text are taken, and no others. -/
theorem takeWhile_append_of_head?
    (isFirst : ∀ c ∈ first, holds c = true)
    (stops : ∀ c ∈ rest.head?, holds c = false) :
    (first ++ rest).takeWhile holds = first := by
  rw [List.takeWhile_append_of_pos isFirst]
  cases rest with
  | nil => simp
  | cons c rest => simp [stops c rfl]

theorem dropWhile_append_of_head?
    (isFirst : ∀ c ∈ first, holds c = true)
    (stops : ∀ c ∈ rest.head?, holds c = false) :
    (first ++ rest).dropWhile holds = rest := by
  rw [List.dropWhile_append_of_pos isFirst]
  cases rest with
  | nil => rfl
  | cons c rest => simp [stops c rfl]

theorem head?_dropWhile_stops (holds : Char -> Bool) (text : List Char) :
    ∀ c ∈ (text.dropWhile holds).head?, holds c = false := by
  intro c isNext
  simpa [Option.mem_def.mp isNext] using List.head?_dropWhile_not holds text

end Cutting

/-! ## Blanks -/

variable {text core : List Char}

/-- There are only blanks, or nothing. -/
def AreBlank (text : List Char) : Prop :=
  ∀ c ∈ text, isBlank c = true

/-- There is no blank at either end. -/
def IsTrimmed (text : List Char) : Prop :=
  (∀ c ∈ text.head?, isBlank c = false) ∧ ∀ c ∈ text.getLast?, isBlank c = false

theorem isTrimmed_trimBlanks (text : List Char) : IsTrimmed (trimBlanks text) := by
  have noneAtEnd : ∀ c ∈ (trimBlanks text).getLast?, isBlank c = false := by
    rw [trimBlanks, List.getLast?_reverse]
    exact head?_dropWhile_stops isBlank _
  refine ⟨fun c isFirst => head?_dropWhile_stops isBlank text c ?_, noneAtEnd⟩
  -- what is left begins as it did before the end was taken off
  have isPart : trimBlanks text <+: text.dropWhile isBlank :=
    List.rdropWhile_prefix isBlank _
  obtain ⟨more, isRest⟩ := isPart
  rw [← isRest]
  cases areLeft : trimBlanks text with
  | nil => simp [areLeft] at isFirst
  | cons next others =>
      rw [areLeft] at isFirst
      exact isFirst

/-- Trimming finds the text between the blanks. -/
theorem trimBlanks_eq_iff :
    trimBlanks text = core ↔
      IsTrimmed core ∧ ∃ before after, AreBlank before ∧ AreBlank after
        ∧ text = before ++ core ++ after := by
  constructor
  · rintro rfl
    refine ⟨isTrimmed_trimBlanks text, text.takeWhile isBlank,
      (text.dropWhile isBlank).rtakeWhile isBlank, fun _ => List.mem_takeWhile_imp,
      fun _ => List.mem_rtakeWhile_imp, ?_⟩
    have isRest : trimBlanks text ++ (text.dropWhile isBlank).rtakeWhile isBlank =
        text.dropWhile isBlank :=
      List.rdropWhile_append_rtakeWhile
    rw [List.append_assoc, isRest, List.takeWhile_append_dropWhile]
  · rintro ⟨⟨noneAtStart, noneAtEnd⟩, before, after, areBefore, areAfter, rfl⟩
    cases core with
    | nil =>
        have areBlank : ∀ c ∈ before ++ [] ++ after, isBlank c = true := by
          simpa [or_imp, forall_and] using ⟨areBefore, areAfter⟩
        rw [trimBlanks, List.dropWhile_eq_nil_iff.mpr areBlank]
        rfl
    | cons c core =>
        rw [trimBlanks, List.append_assoc,
          dropWhile_append_of_head? areBefore (by simpa using noneAtStart),
          List.reverse_append, dropWhile_append_of_head? (by simpa [AreBlank] using areAfter)
            (by simpa only [List.head?_reverse] using noneAtEnd), List.reverse_reverse]

/-! ## Words -/

/-- No character of a text is blank. -/
def NoBlank (text : String) : Prop :=
  ∀ c ∈ text.toList, isBlank c = false

instance (text : String) : Decidable (NoBlank text) :=
  decidable_of_iff (text.toList.all fun c => !isBlank c) (by simp [NoBlank])

@[simp] theorem noBlank_append_iff {before after : String} :
    NoBlank (before ++ after) ↔ NoBlank before ∧ NoBlank after := by
  simp only [NoBlank, String.toList_append, List.forall_mem_append]

/-- Some characters without a blank among them. -/
def IsWord (word : String) : Prop :=
  word ≠ "" ∧ NoBlank word

instance (word : String) : Decidable (IsWord word) :=
  inferInstanceAs (Decidable (word ≠ "" ∧ NoBlank word))

/-- What is put behind a word goes on with it if there is no blank. -/
theorem IsWord.append_iff
    {lead : String}
    (isWord : IsWord lead)
    (text : String) :
    IsWord (lead ++ text) ↔ NoBlank text := by
  obtain ⟨isSome, noBlank⟩ := isWord
  simp [IsWord, isSome, noBlank]

theorem isWord_of_mem_words
    {text word : String}
    (isHere : word ∈ words text) :
    IsWord word := by
  obtain ⟨chars, areHere, rfl⟩ := List.mem_map.mp isHere
  obtain ⟨isPiece, isSome⟩ := List.mem_filter.mp areHere
  constructor
  · intro isEmpty
    rw [String.ofList_eq_empty_iff.mp isEmpty] at isSome
    contradiction
  · rw [NoBlank, String.toList_ofList]
    exact not_separates_of_mem_pieces isPiece

/-- A word is not cut. -/
theorem IsWord.words_eq {word : String} (isWord : IsWord word) : words word = [word] := by
  obtain ⟨isSome, noBlank⟩ := isWord
  have notEmpty : word.toList ≠ [] := fun isEmpty =>
    isSome (String.toList_eq_nil_iff.mp isEmpty)
  rw [words, blankSeparated, pieces_eq_singleton noBlank]
  simp [notEmpty, String.ofList_toList]

/-- Words behind a blank follow those in front of it. -/
theorem words_append_blank (before after : String) :
    words (before ++ " " ++ after) = words before ++ words after := by
  have isSingle : " ".toList = [' '] := rfl
  simp only [words, blankSeparated, String.toList_append, isSingle, List.append_assoc]
  rw [List.singleton_append, pieces_append_cons (by decide), List.filter_append,
    List.map_append]

/-- Words with blanks between them are the words of the text. -/
theorem words_joinWith
    {texts : List String}
    (areWords : ∀ text ∈ texts, IsWord text) :
    words (joinWith " " texts) = texts := by
  induction texts with
  | nil => rfl
  | cons text rest restWords =>
      obtain ⟨isWord, areOthers⟩ := List.forall_mem_cons.mp areWords
      cases rest with
      | nil => exact isWord.words_eq
      | cons next more =>
          rw [joinWith, words_append_blank, isWord.words_eq, restWords areOthers]
          rfl

end Text
end PackageFlags
