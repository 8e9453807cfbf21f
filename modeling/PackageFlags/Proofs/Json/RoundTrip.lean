import PackageFlags.Json.Reader
import PackageFlags.Json.Writer

/-!
# Reading what was written

A value that is nested no deeper than the reader follows, and that has no numbers in it,
is read back from its text. Strings may hold any characters: what is written for one of
them is read as that one, whatever comes behind it.
-/

namespace PackageFlags
namespace Json

/-! ## Strings -/

/-- Characters below U+0020 are written as the four digits that they are read from. -/
theorem hexUnit?_hexDigit :
    ∀ code < 0x20,
      hexUnit? '0' '0' (hexDigit (code / 16)) (hexDigit (code % 16)) = some code := by
  decide

/-- A character that needs no escape is read as it stands. -/
theorem readString_cons
    {c : Char}
    (notQuote : c ≠ '"')
    (notBackslash : c ≠ '\\')
    (isPrintable : ¬ c.toNat < 0x20)
    (rest : List Char) :
    readString (c :: rest) = withFirst c (readString rest) := by
  rw [readString, if_neg (not_or.mpr ⟨notBackslash, isPrintable⟩)]
  all_goals simp [notQuote, notBackslash]

/-- The code of a character is read as that character unless it is a surrogate. -/
theorem readString_unit
    {a b c d : Char}
    {unit : Nat}
    (isUnit : hexUnit? a b c d = some unit)
    (isSmall : unit < 0x20)
    (rest : List Char) :
    readString ('\\' :: 'u' :: a :: b :: c :: d :: rest) =
      withFirst (Char.ofNat unit) (readString rest) := by
  have notHigh : isHighSurrogate unit = false := by
    simp [isHighSurrogate]
    omega
  have notLow : isLowSurrogate unit = false := by
    simp [isLowSurrogate]
    omega
  rw [readString]
  simp [isUnit, notHigh, notLow]

/-- What is written for a character is read as that character. -/
theorem readString_escape (c : Char) (rest : List Char) :
    readString (escape c ++ rest) = withFirst c (readString rest) := by
  unfold escape
  split
  case h_8 notQuote notBackslash _ _ _ _ _ =>
    split
    case isTrue isControl =>
      have isRead := readString_unit (hexUnit?_hexDigit c.toNat isControl) isControl rest
      rw [Char.ofNat_toNat] at isRead
      exact isRead
    case isFalse isPrintable =>
      exact readString_cons notQuote notBackslash isPrintable rest
  all_goals rfl

/-- A string is read up to the quote behind it. -/
theorem readString_flatMap_escape (text rest : List Char) :
    readString (text.flatMap escape ++ '"' :: rest) = some (text, rest) := by
  induction text with
  | nil => rfl
  | cons c text textRead =>
      rw [List.flatMap_cons, List.append_assoc, readString_escape, textRead]
      rfl

/-! ## Space and marks -/

@[simp] theorem skipSpace_lineStart (level : Nat) (text : List Char) :
    skipSpace (lineStart level ++ text) = skipSpace text := by
  unfold skipSpace
  refine List.dropWhile_append_of_pos ?_
  intro c isBlank
  rcases List.mem_cons.mp isBlank with rfl | isSpace
  · rfl
  · rw [List.eq_of_mem_replicate isSpace]
    rfl

theorem skipSpace_cons
    {c : Char}
    (notSpace : isSpace c = false)
    (text : List Char) :
    skipSpace (c :: text) = c :: text := by
  simp [skipSpace, notSpace]

@[simp] theorem expect_lineStart (mark : Char) (level : Nat) (text : List Char) :
    expect mark (lineStart level ++ text) = expect mark text := by
  simp [expect]

/-- A mark is found where it stands. -/
theorem expect_self
    {mark : Char}
    (notSpace : isSpace mark = false)
    (text : List Char) :
    expect mark (mark :: text) = some text := by
  simp [expect, skipSpace_cons notSpace, Text.dropLead]

/-- A mark is not found where another character stands. -/
theorem expect_of_ne
    {mark c : Char}
    (notSpace : isSpace c = false)
    (isOther : c ≠ mark)
    (text : List Char) :
    expect mark (c :: text) = none := by
  simp [expect, skipSpace_cons notSpace, Text.dropLead, isOther]

/-- A value may stand on a line of its own. -/
@[simp] theorem readValue_lineStart (depth level : Nat) (text : List Char) :
    readValue depth (lineStart level ++ text) = readValue depth text := by
  cases depth <;> simp [readValue]

/-! ## Lists -/

/-- Texts on lines of their own, with commas between them. -/
def separated (level : Nat) : List (List Char) -> List Char
  | [] => []
  | [text] => lineStart level ++ text
  | text :: next :: rest =>
      lineStart level ++ text ++ ',' :: separated level (next :: rest)

theorem writeItems_eq (level : Nat) (items : List Value) :
    writeItems level items = separated level (items.map (write level)) := by
  induction items with
  | nil => rfl
  | cons item items itemsSame =>
      cases items with
      | nil => rfl
      | cons next rest =>
          rw [writeItems, itemsSame]
          · rfl
          · simp

/-- The text of a member. -/
def writeMember (level : Nat) (member : String × Value) : List Char :=
  writeString member.1 ++ ':' :: ' ' :: write level member.2

theorem writeMembers_eq (level : Nat) (members : List (String × Value)) :
    writeMembers level members = separated level (members.map (writeMember level)) := by
  induction members with
  | nil => rfl
  | cons member members membersSame =>
      obtain ⟨name, value⟩ := member
      cases members with
      | nil => simp [writeMembers, separated, writeMember]
      | cons next rest =>
          rw [writeMembers, membersSame]
          · simp [separated, writeMember]
          · simp

/-- Each text takes a line, so there are no more texts than characters. -/
theorem length_le_separated (level : Nat) (texts : List (List Char)) :
    texts.length ≤ (separated level texts).length := by
  induction texts with
  | nil => exact Nat.le_refl _
  | cons text texts textsLe =>
      cases texts with
      | nil => simp [separated, lineStart]
      | cons next rest =>
          simp only [separated, lineStart, List.length_append, List.length_cons] at textsLe ⊢
          omega

section Lists

variable {α : Type} {item : List Char -> Option (α × List Char)}
variable {written : α -> List Char} {close : Char}

/-- Items are read up to the closing mark behind them if each of them is read. -/
theorem readItems_separated
    {level : Nat}
    {items : List α}
    (reads : ∀ a ∈ items, ∀ rest,
      item (lineStart level ++ (written a ++ rest)) = some (a, rest))
    (isSome : items ≠ [])
    (closes : isSpace close = false)
    (notComma : ',' ≠ close)
    {limit : Nat}
    (isEnough : items.length ≤ limit)
    (outer : Nat)
    (rest : List Char) :
    readItems item close limit
        (separated level (items.map written) ++ (lineStart outer ++ close :: rest)) =
      some (items, rest) := by
  induction items generalizing limit with
  | nil => contradiction
  | cons first others othersRead =>
      obtain ⟨readsFirst, readsOthers⟩ := List.forall_mem_cons.mp reads
      obtain ⟨limit, rfl⟩ : ∃ fewer, limit = fewer + 1 :=
        ⟨limit - 1, by simp only [List.length_cons] at isEnough; omega⟩
      cases others with
      | nil =>
          simp [readItems, separated, readsFirst, expect_self closes]
      | cons next more =>
          have isMore := othersRead readsOthers (List.cons_ne_nil next more)
            (Nat.le_of_succ_le_succ isEnough)
          have isComma : isSpace ',' = false := by decide
          rw [List.map_cons] at isMore
          simp only [readItems, List.map_cons, separated, List.append_assoc,
            List.cons_append, readsFirst, expect_of_ne isComma notComma,
            expect_self isComma, Option.bind_eq_bind, Option.bind_some, isMore]

/-- A list of items on lines of their own is read if each of them is. -/
theorem readList_separated
    {level : Nat}
    {items : List α}
    (reads : ∀ a ∈ items, ∀ rest,
      item (lineStart level ++ (written a ++ rest)) = some (a, rest))
    (isSome : items ≠ [])
    (starts : ∀ a ∈ items, ∃ c more, written a = c :: more
      ∧ isSpace c = false ∧ c ≠ close)
    (closes : isSpace close = false)
    (notComma : ',' ≠ close)
    (outer : Nat)
    (rest : List Char) :
    readList item close
        (separated level (items.map written) ++ (lineStart outer ++ close :: rest)) =
      some (items, rest) := by
  have isOpen : expect close
      (separated level (items.map written) ++ (lineStart outer ++ close :: rest)) =
        none := by
    cases items with
    | nil => contradiction
    | cons first others =>
        obtain ⟨c, more, isWritten, notSpace, notClose⟩ :=
          starts first List.mem_cons_self
        cases others <;>
          simp [separated, isWritten, expect_of_ne notSpace notClose]
  have isEnough : items.length ≤
      (separated level (items.map written) ++ (lineStart outer ++ close :: rest)).length := by
    have isLe := length_le_separated level (items.map written)
    simp only [List.length_map, List.length_append] at isLe ⊢
    omega
  unfold readList
  rw [isOpen]
  exact readItems_separated reads isSome closes notComma isEnough outer rest

end Lists

/-- A member is read with its value. -/
theorem readMember_writeMember
    {value : List Char -> Option (Value × List Char)}
    {level : Nat}
    {member : String × Value}
    {rest : List Char}
    (isValue : value (' ' :: (write level member.2 ++ rest)) = some (member.2, rest)) :
    readMember value (lineStart level ++ (writeMember level member ++ rest)) =
      some (member, rest) := by
  have isName := readString_flatMap_escape member.1.toList
    (':' :: ' ' :: (write level member.2 ++ rest))
  have isQuote : isSpace '"' = false := by decide
  have isColon : isSpace ':' = false := by decide
  simp [readMember, writeMember, writeString, expect_self isQuote, expect_self isColon,
    isName, isValue]

/-! ## Values -/

/-- A value without numbers in which arrays and objects are nested at most so deep. -/
inductive Value.Plain : Nat -> Value -> Prop
  | null (depth : Nat) : Plain depth .null
  | bool (depth : Nat) (value : Bool) : Plain depth (.bool value)
  | string (depth : Nat) (text : String) : Plain depth (.string text)
  | array
      {depth : Nat}
      {items : List Value}
      (arePlain : ∀ item ∈ items, Plain depth item) :
      Plain (depth + 1) (.array items)
  | object
      {depth : Nat}
      {written : List (String × Value)}
      (arePlain : ∀ member ∈ written, Plain depth member.2) :
      Plain (depth + 1) (.object written)

/-- The text of a plain value starts with no space and closes nothing. -/
theorem Value.Plain.exists_write
    {depth : Nat}
    {value : Value}
    (isPlain : value.Plain depth)
    (level : Nat) :
    ∃ c more, write level value = c :: more ∧ isSpace c = false ∧ c ≠ ']' := by
  cases isPlain with
  | null => exact ⟨_, _, rfl, by decide, by decide⟩
  | bool _ value => cases value <;> exact ⟨_, _, rfl, by decide, by decide⟩
  | string => exact ⟨_, _, rfl, by decide, by decide⟩
  | @array _ items _ => cases items <;> exact ⟨_, _, rfl, by decide, by decide⟩
  | @object _ written _ => cases written <;> exact ⟨_, _, rfl, by decide, by decide⟩

/-- A string is read back at any depth. -/
theorem readValue_writeString (depth : Nat) (text : String) (rest : List Char) :
    readValue depth (writeString text ++ rest) = some (.string text, rest) := by
  have isRead := readString_flatMap_escape text.toList rest
  have isScalar : readScalar (writeString text ++ rest) = some (.string text, rest) := by
    simp [writeString, readScalar, isRead]
  have isText : skipSpace (writeString text ++ rest) = writeString text ++ rest :=
    skipSpace_cons (by decide) _
  cases depth with
  | zero => rw [readValue, isText, isScalar]
  | succ depth =>
      rw [readValue, isText]
      exact isScalar

/-- An array is read back if its items are. -/
theorem readValue_write_array
    {depth : Nat}
    {items : List Value}
    (arePlain : ∀ item ∈ items, item.Plain depth)
    (areRead : ∀ item ∈ items, ∀ level rest,
      readValue depth (write level item ++ rest) = some (item, rest))
    (level : Nat)
    (rest : List Char) :
    readValue (depth + 1) (write level (.array items) ++ rest) =
      some (.array items, rest) := by
  cases items with
  | nil => rfl
  | cons first items =>
      have reads : ∀ item ∈ first :: items, ∀ rest,
          readValue depth (lineStart (level + 1) ++ (write (level + 1) item ++ rest)) =
            some (item, rest) := by
        intro item isItem rest
        rw [readValue_lineStart, areRead item isItem]
      have isList := readList_separated reads (List.cons_ne_nil first items)
        (fun item isItem => (arePlain item isItem).exists_write (level + 1))
        (by decide) (by decide) level rest
      have isText : write level (.array (first :: items)) ++ rest =
          '[' :: (separated (level + 1) ((first :: items).map (write (level + 1)))
            ++ (lineStart level ++ ']' :: rest)) := by
        simp [write, writeItems_eq]
      rw [isText, readValue, skipSpace_cons (by decide)]
      simp only [isList, Option.map_some]

/-- An object is read back if the values of its members are. -/
theorem readValue_write_object
    {depth : Nat}
    {written : List (String × Value)}
    (areRead : ∀ member ∈ written, ∀ level rest,
      readValue depth (write level member.2 ++ rest) = some (member.2, rest))
    (level : Nat)
    (rest : List Char) :
    readValue (depth + 1) (write level (.object written) ++ rest) =
      some (.object written, rest) := by
  cases written with
  | nil => rfl
  | cons first members =>
      have reads : ∀ member ∈ first :: members, ∀ rest,
          readMember (readValue depth)
            (lineStart (level + 1) ++ (writeMember (level + 1) member ++ rest)) =
            some (member, rest) := by
        intro member isMember rest
        refine readMember_writeMember ?_
        rw [← areRead member isMember (level + 1) rest]
        cases depth <;> rfl
      have starts : ∀ member ∈ first :: members, ∃ c more,
          writeMember (level + 1) member = c :: more
            ∧ isSpace c = false ∧ c ≠ '\x7d' :=
        fun member _ => ⟨'"', _, rfl, by decide, by decide⟩
      have isList := readList_separated reads (List.cons_ne_nil first members) starts
        (by decide) (by decide) level rest
      have isText : write level (.object (first :: members)) ++ rest =
          '\x7b' :: (separated (level + 1)
            ((first :: members).map (writeMember (level + 1)))
            ++ (lineStart level ++ '\x7d' :: rest)) := by
        simp [write, writeMembers_eq]
      rw [isText, readValue, skipSpace_cons (by decide)]
      simp only [isList, Option.map_some]

/-- A plain value is read back from its text, whatever comes behind it. -/
theorem Value.Plain.readValue_write
    {depth : Nat}
    {value : Value}
    (isPlain : value.Plain depth)
    (level : Nat)
    (rest : List Char) :
    readValue depth (write level value ++ rest) = some (value, rest) := by
  induction isPlain generalizing level rest with
  | null depth => cases depth <;> rfl
  | bool depth value => cases depth <;> cases value <;> rfl
  | string depth text => exact readValue_writeString depth text rest
  | array arePlain areRead => exact readValue_write_array arePlain areRead level rest
  | object _ areRead => exact readValue_write_object areRead level rest

/-- The text of a plain value that is nested no deeper than a reader follows is a JSON
text of that value. -/
theorem Value.Plain.parse_pretty
    {value : Value}
    (isPlain : value.Plain deepest) :
    parse value.pretty = some value := by
  have isRead := isPlain.readValue_write 0 []
  rw [List.append_nil] at isRead
  simp [parse, Value.pretty, isRead, skipSpace]

end Json
end PackageFlags
