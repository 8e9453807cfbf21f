/-!
# Cutting text into pieces

Text is cut on lists of characters, so that every statement about cutting is an
induction on the text. `pieces` cuts at every separator, `cutFirst` at the first
one only, and `dropLead` removes a fixed beginning. The functions on `String`
wrap them.
-/

namespace PackageFlags
namespace Text

/-- The pieces of a text between the characters accepted by `separates`. -/
def pieces
    (separates : Char -> Bool) : List Char -> List (List Char)
  | [] => [[]]
  | c :: rest =>
      if separates c then
        [] :: pieces separates rest
      else
        (pieces separates rest).modifyHead (List.cons c)

theorem pieces_ne_nil
    (separates : Char -> Bool)
    (text : List Char) :
    pieces separates text ≠ [] := by
  induction text with
  | nil => simp [pieces]
  | cons c rest restNonempty =>
      unfold pieces
      split
      · simp
      · cases remaining : pieces separates rest with
        | nil => exact absurd remaining restNonempty
        | cons piece more => simp

/-- A separator ends a piece. -/
theorem pieces_append_cons
    {separates : Char -> Bool}
    {separator : Char}
    (isSeparator : separates separator = true)
    (before after : List Char) :
    pieces separates (before ++ separator :: after) =
      pieces separates before ++ pieces separates after := by
  induction before with
  | nil => simp [pieces, isSeparator]
  | cons c rest restSame =>
      rw [List.cons_append, pieces, pieces, restSame]
      split
      · rfl
      · cases remaining : pieces separates rest with
        | nil => exact absurd remaining (pieces_ne_nil separates rest)
        | cons piece more => rfl

/-- There is one piece more than there are separators. -/
theorem length_pieces
    (separates : Char -> Bool)
    (text : List Char) :
    (pieces separates text).length = text.countP separates + 1 := by
  induction text with
  | nil => rfl
  | cons c rest restLength =>
      unfold pieces
      split
      case isTrue isSeparator => simp [restLength, isSeparator]
      case isFalse isPlain => simp [restLength, isPlain]

/-- A text without separators is its only piece. -/
theorem pieces_eq_singleton
    {separates : Char -> Bool}
    {text : List Char}
    (noneSeparates : ∀ c ∈ text, separates c = false) :
    pieces separates text = [text] := by
  induction text with
  | nil => rfl
  | cons c rest restSame =>
      obtain ⟨isPlain, restPlain⟩ := List.forall_mem_cons.mp noneSeparates
      rw [pieces, if_neg (by simp [isPlain]), restSame restPlain]
      rfl

/-- No piece has a separator in it. -/
theorem not_separates_of_mem_pieces
    {separates : Char -> Bool}
    {text piece : List Char}
    (isPiece : piece ∈ pieces separates text) :
    ∀ c ∈ piece, separates c = false := by
  induction text generalizing piece with
  | nil => simp_all [pieces]
  | cons c rest restPlain =>
      unfold pieces at isPiece
      split at isPiece
      · rcases List.mem_cons.mp isPiece with rfl | isLater
        · simp
        · exact restPlain isLater
      · rename_i isPlain
        cases remaining : pieces separates rest with
        | nil => exact absurd remaining (pieces_ne_nil separates rest)
        | cons first more =>
            rw [remaining] at restPlain isPiece
            rcases List.mem_cons.mp isPiece with rfl | isLater
            · exact List.forall_mem_cons.mpr
                ⟨by simpa using isPlain, restPlain List.mem_cons_self⟩
            · exact restPlain (List.mem_cons_of_mem first isLater)

/-- What is put behind a text goes on from its last piece. -/
theorem pieces_append
    (separates : Char -> Bool)
    (before after : List Char) :
    ∃ init last, pieces separates before = init ++ [last]
      ∧ pieces separates (before ++ after) =
          init ++ (pieces separates after).modifyHead (last ++ ·) := by
  induction before with
  | nil =>
      refine ⟨[], [], rfl, ?_⟩
      cases remaining : pieces separates after with
      | nil => exact absurd remaining (pieces_ne_nil separates after)
      | cons piece more => simp [remaining]
  | cons c rest restAppend =>
      obtain ⟨init, last, isRest, isAppend⟩ := restAppend
      rw [List.cons_append, pieces, pieces, isRest, isAppend]
      split
      · exact ⟨[] :: init, last, rfl, rfl⟩
      · cases init with
        | nil =>
            refine ⟨[], c :: last, rfl, ?_⟩
            cases pieces separates after <;> rfl
        | cons piece more => exact ⟨(c :: piece) :: more, last, rfl, rfl⟩

/-- The only piece of a text is the text, and has no separator in it. -/
theorem eq_of_pieces_eq_singleton
    {separates : Char -> Bool}
    {text piece : List Char}
    (isOnly : pieces separates text = [piece]) :
    text = piece ∧ ∀ c ∈ text, separates c = false := by
  have noneSeparates : ∀ c ∈ text, ¬ separates c = true := by
    have counted := length_pieces separates text
    rw [isOnly] at counted
    exact List.countP_eq_zero.mp (Nat.succ.inj counted).symm
  have areOthers : ∀ c ∈ text, separates c = false := by simpa using noneSeparates
  rw [pieces_eq_singleton areOthers] at isOnly
  exact ⟨List.singleton_inj.mp isOnly, areOthers⟩

/-- A piece that others follow ends at a separator, and they are the pieces of what
stands behind it. -/
theorem exists_of_pieces_eq_cons
    {separates : Char -> Bool}
    {text first next : List Char}
    {more : List (List Char)}
    (areCut : pieces separates text = first :: next :: more) :
    ∃ separator rest, separates separator = true
      ∧ text = first ++ separator :: rest
      ∧ pieces separates rest = next :: more := by
  induction text generalizing first with
  | nil => simp [pieces] at areCut
  | cons c text textCut =>
      unfold pieces at areCut
      split at areCut
      case isTrue isSeparator =>
        obtain ⟨rfl, areMore⟩ := List.cons.inj areCut
        exact ⟨c, text, isSeparator, rfl, areMore⟩
      case isFalse =>
        cases areLater : pieces separates text with
        | nil => exact absurd areLater (pieces_ne_nil separates text)
        | cons piece others =>
            rw [areLater] at areCut
            obtain ⟨rfl, rfl⟩ := List.cons.inj areCut
            obtain ⟨separator, rest, isSeparator, rfl, areMore⟩ := textCut areLater
            exact ⟨separator, rest, isSeparator, rfl, areMore⟩

/-- The parts before and after the first occurrence of `separator`. -/
def cutFirst
    (separator : Char) : List Char -> Option (List Char × List Char)
  | [] => none
  | c :: rest =>
      if c = separator then
        some ([], rest)
      else
        (cutFirst separator rest).map fun (before, after) =>
          (c :: before, after)

/-- The parts make up the text with the separator between them. -/
theorem cutFirst_eq_some
    {separator : Char}
    {text before after : List Char}
    (isCut : cutFirst separator text = some (before, after)) :
    text = before ++ separator :: after := by
  induction text generalizing before with
  | nil => contradiction
  | cons c text textCut =>
      unfold cutFirst at isCut
      split at isCut
      · rename_i isSeparator
        cases isCut
        rw [isSeparator, List.nil_append]
      · obtain ⟨⟨earlier, later⟩, isLater, same⟩ := Option.map_eq_some_iff.mp isCut
        cases same
        rw [textCut isLater, List.cons_append]

/-- A text is cut at a separator that has none in front of it. -/
theorem cutFirst_append_cons
    {separator : Char}
    {before : List Char}
    (notInside : separator ∉ before)
    (after : List Char) :
    cutFirst separator (before ++ separator :: after) = some (before, after) := by
  induction before with
  | nil => simp [cutFirst]
  | cons c before beforeCut =>
      rw [List.mem_cons, not_or] at notInside
      rw [List.cons_append, cutFirst, if_neg (Ne.symm notInside.1), beforeCut notInside.2]
      rfl

/-- What follows `lead` when the text starts with it. -/
def dropLead : List Char -> List Char -> Option (List Char)
  | [], text => some text
  | _ :: _, [] => none
  | expected :: lead, c :: text =>
      if c = expected then dropLead lead text else none

theorem dropLead_eq_some_iff {lead text rest : List Char} :
    dropLead lead text = some rest ↔ text = lead ++ rest := by
  induction lead generalizing text with
  | nil => simp [dropLead]
  | cons expected lead leadSame =>
      cases text with
      | nil => simp [dropLead]
      | cons c text =>
          by_cases same : c = expected
          · simp [dropLead, same, leadSame]
          · simp [dropLead, same]

/-- The pieces of a string between the occurrences of `separator`. -/
def splitOn (separator : Char) (text : String) : List String :=
  (pieces (· = separator) text.toList).map String.ofList

/-- The parts of a string before and after the first `separator`. -/
def splitOnce
    (separator : Char)
    (text : String) : Option (String × String) :=
  (cutFirst separator text.toList).map fun (before, after) =>
    (String.ofList before, String.ofList after)

/-- What follows `lead` in a string that starts with it. -/
def dropStart (lead text : String) : Option String :=
  (dropLead lead.toList text.toList).map String.ofList

/-- The strings in order with `separator` between neighbours. -/
def joinWith (separator : String) : List String -> String
  | [] => ""
  | [text] => text
  | text :: next :: rest =>
      text ++ separator ++ joinWith separator (next :: rest)

/-- The two parts of a text make it up with the separator between them. -/
theorem splitOnce_eq_some
    {separator : Char}
    {text before after : String}
    (isSplit : splitOnce separator text = some (before, after)) :
    text = before ++ String.singleton separator ++ after := by
  obtain ⟨⟨earlier, later⟩, isCut, same⟩ := Option.map_eq_some_iff.mp isSplit
  cases same
  apply String.toList_injective
  simp [cutFirst_eq_some isCut]

theorem splitOnce_append
    {separator : Char}
    {before : String}
    (notInside : separator ∉ before.toList)
    (after : String) :
    splitOnce separator (before ++ String.singleton separator ++ after) =
      some (before, after) := by
  have isCut := cutFirst_append_cons notInside after.toList
  rw [splitOnce, String.toList_append, String.toList_append, String.toList_singleton,
    List.append_assoc, List.singleton_append, isCut]
  simp only [Option.map_some, String.ofList_toList]

/-- What follows a beginning is what the text is put together of with it. -/
theorem dropStart_eq_some_iff {lead text rest : String} :
    dropStart lead text = some rest ↔ text = lead ++ rest := by
  simp only [dropStart, Option.map_eq_some_iff, dropLead_eq_some_iff]
  constructor
  · rintro ⟨chars, areChars, rfl⟩
    apply String.toList_injective
    rw [areChars, String.toList_append, String.toList_ofList]
  · rintro rfl
    exact ⟨rest.toList, String.toList_append, String.ofList_toList⟩

/-- Pieces of a string have no separator in them. -/
theorem not_mem_of_mem_splitOn
    {separator : Char}
    {text piece : String}
    (isPiece : piece ∈ splitOn separator text) :
    separator ∉ piece.toList := by
  obtain ⟨chars, areChars, rfl⟩ := List.mem_map.mp isPiece
  intro isInside
  rw [String.toList_ofList] at isInside
  simpa using not_separates_of_mem_pieces areChars separator isInside

/-- Pieces behind a separator follow those in front of it. -/
theorem splitOn_append_cons (separator : Char) (before after : String) :
    splitOn separator (before ++ String.ofList [separator] ++ after) =
      splitOn separator before ++ splitOn separator after := by
  simp only [splitOn, String.toList_append, String.toList_ofList, List.append_assoc]
  rw [List.singleton_append, pieces_append_cons (by simp), List.map_append]

/-- Pieces behind a string that ends with a separator follow those in front. -/
theorem splitOn_append_of_getLast?
    {separator : Char}
    {before : String}
    (endsWith : (splitOn separator before).getLast? = some "")
    (after : String) :
    ∃ init, splitOn separator before = init ++ [""]
      ∧ splitOn separator (before ++ after) = init ++ splitOn separator after := by
  obtain ⟨init, last, isBefore, isAppend⟩ :=
    pieces_append (· = separator) before.toList after.toList
  have noneLeft : last = [] := by
    simpa [splitOn, isBefore] using endsWith
  refine ⟨init.map String.ofList, by simp [splitOn, isBefore, noneLeft], ?_⟩
  rw [splitOn, String.toList_append, isAppend, noneLeft, List.map_append]
  cases remaining : pieces (· = separator) after.toList <;> simp [splitOn, remaining]

/-- A string without separators is its only piece. -/
theorem splitOn_eq_singleton
    {separator : Char}
    {text : String}
    (notInside : separator ∉ text.toList) :
    splitOn separator text = [text] := by
  have noneSeparates : ∀ c ∈ text.toList, decide (c = separator) = false := by
    rintro c isInside
    exact decide_eq_false fun same => notInside (same ▸ isInside)
  rw [splitOn, pieces_eq_singleton noneSeparates, List.map_singleton, String.ofList_toList]

/-- The only piece of a string is the string itself. -/
theorem eq_of_splitOn_eq_singleton
    {separator : Char}
    {text piece : String}
    (isOnly : splitOn separator text = [piece]) :
    text = piece := by
  obtain ⟨chars, areChars, rfl⟩ := List.map_eq_singleton_iff.mp isOnly
  rw [← (eq_of_pieces_eq_singleton areChars).1, String.ofList_toList]

/-- Strings that are joined with a separator that is in none of them are its pieces. -/
theorem splitOn_joinWith
    {separator : Char}
    {texts : List String}
    (isSome : texts ≠ [])
    (notInside : ∀ text ∈ texts, separator ∉ text.toList) :
    splitOn separator (joinWith (String.ofList [separator]) texts) = texts := by
  induction texts with
  | nil => contradiction
  | cons text rest restSame =>
      obtain ⟨notFirst, notRest⟩ := List.forall_mem_cons.mp notInside
      cases rest with
      | nil => exact splitOn_eq_singleton notFirst
      | cons next more =>
          rw [joinWith, splitOn_append_cons, splitOn_eq_singleton notFirst,
            restSame (List.cons_ne_nil next more) notRest]
          rfl

/-- The pieces of a string make it up with the separator between them. -/
theorem joinWith_splitOn (separator : Char) (text : String) :
    joinWith (String.ofList [separator]) (splitOn separator text) = text := by
  have joined : ∀ chars : List Char,
      joinWith (String.ofList [separator])
          ((pieces (· = separator) chars).map String.ofList) =
        String.ofList chars := by
    intro chars
    induction chars with
    | nil => rfl
    | cons c rest restJoined =>
        rw [pieces]
        cases areRest : pieces (· = separator) rest with
        | nil => exact absurd areRest (pieces_ne_nil _ rest)
        | cons piece more =>
            rw [areRest] at restJoined
            apply String.toList_injective
            by_cases isSeparator : c = separator
            · rw [if_pos (by simpa using isSeparator), List.map_cons, List.map_cons,
                joinWith, ← List.map_cons, restJoined]
              simp [isSeparator]
            · rw [if_neg (by simpa using isSeparator), ← String.toList_ofList (l := rest),
                ← restJoined]
              cases more <;> simp [joinWith]
  rw [splitOn, joined, String.ofList_toList]

end Text
end PackageFlags
