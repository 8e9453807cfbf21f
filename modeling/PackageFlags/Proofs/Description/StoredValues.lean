import Mathlib.Data.Nat.Find
import PackageFlags.Proofs.Description.Lines

/-!
# What lines store

Which lines a description may have is a matter of each line and of the names that the
lines before it define. What is stored of them is what each line says, with every
variable replaced by the value that was stored for it last before the line.
-/

namespace PackageFlags
namespace Description

/-! ## The parts of a value -/

/-- The variable that a part uses, if it uses one. -/
def Part.variable? : Part -> Option String
  | .character _ => none
  | .variable name => some name

/-- The text that a part stands for. -/
def Part.text (valueOf : String -> Option String) : Part -> List Char
  | .character c => [c]
  | .variable name => ((valueOf name).getD "").toList

/-- The variables that are used, from left to right. -/
def used (parts : List Part) : List String :=
  parts.filterMap Part.variable?

/-- The parts with the values of the variables in their places. -/
def expansion (valueOf : String -> Option String) (parts : List Part) : String :=
  String.ofList (parts.flatMap (Part.text valueOf))

/-! ## Lines that fit -/

/-- The lines of a text: with line feeds between them they are the text, and none has a
line feed in it. Behind a line feed at the end of the text there is a last line, which is
empty. -/
structure AreLines (text : String) (lines : List (List Char)) : Prop where
  notNone : lines ≠ []
  joined : ['\n'].intercalate lines = text.toList
  unbroken : ∀ line ∈ lines, '\n' ∉ line

theorem pieces_eq_splitOn (separator : Char) (chars : List Char) :
    Text.pieces (· = separator) chars = chars.splitOn separator := by
  induction chars with
  | nil => rfl
  | cons c rest restCut =>
      rw [Text.pieces, restCut, List.splitOn, List.splitOn,
        List.splitOnP_cons_eq_if_modifyHead]
      simp only [beq_iff_eq, decide_eq_true_eq]

/-- A text has just the lines that it is cut into. -/
theorem areLines_iff {text : String} {lines : List (List Char)} :
    AreLines text lines ↔ lines = Text.pieces (· = '\n') text.toList := by
  constructor
  · intro areLines
    rw [pieces_eq_splitOn, ← areLines.joined,
      List.splitOn_intercalate '\n' areLines.unbroken areLines.notNone]
  · rintro rfl
    exact {
      notNone := Text.pieces_ne_nil _ _
      joined := by rw [pieces_eq_splitOn, List.intercalate_splitOn]
      unbroken := fun line isLine isBroken => by
        simpa using Text.not_separates_of_mem_pieces isLine '\n' isBroken }

section Lines

variable (lines : List (List Char)) (index : Nat)

/-- The line at a position assigns a value to a name. -/
def Assigns (line : Line) : Prop :=
  ∃ written, lines[index]? = some written ∧ Line.Writes written line

/-- A line before a position defines a variable. -/
def Defines (name : String) : Prop :=
  ∃ earlier line, earlier < index ∧ Assigns lines earlier line
    ∧ line.assignment = .variable ∧ line.name = name

/-- The line at a position is blank, or it assigns a value that only uses variables that
are defined before it. -/
def Fits : Prop :=
  ∀ written, lines[index]? = some written → Line.Says written [] ∨ ∃ line parts,
    Line.Writes written line ∧ Splits line.value parts
      ∧ ∀ name ∈ used parts, Defines lines index name

/-- What is wrong with the line at a position: it has not the form of a line, and its
number is counted from one; or its value uses variables, and this is the first one that is
not defined before it. -/
inductive Offends : Flaw -> Prop
  | malformed
      {written : List Char}
      (isLine : lines[index]? = some written)
      (notBlank : ¬ Line.Says written [])
      (notWritten : ∀ line, ¬ Line.Writes written line) :
      Offends (.malformedLine (index + 1))
  | undefined
      {line : Line}
      {parts : List Part}
      {earlier later : List String}
      {name : String}
      (assigns : Assigns lines index line)
      (splits : Splits line.value parts)
      (areUsed : used parts = earlier ++ name :: later)
      (areDefined : ∀ other ∈ earlier, Defines lines index other)
      (notDefined : ¬ Defines lines index name) :
      Offends (.undefinedVariable name)

/-- What is wrong with the first line that does not fit. -/
def IsFirstFlaw (flaw : Flaw) : Prop :=
  ∃ index, (∀ earlier < index, Fits lines earlier) ∧ Offends lines index flaw

end Lines

/-! ## What is stored -/

/-- A value that is stored, and the line that it is stored for. -/
@[ext] structure Stored where
  /-- The position of the line. -/
  index : Nat
  /-- What the line assigns. -/
  line : Line
  /-- The value that is stored. -/
  value : String

/-- Whether a value is stored for a name. -/
def Stored.isFor (assignment : Assignment) (name : String) (stored : Stored) : Bool :=
  stored.line.assignment = assignment && stored.line.name = name

/-- The value that was stored for a name last. -/
def latest
    (values : List Stored)
    (assignment : Assignment)
    (name : String) : Option String :=
  (values.reverse.find? (Stored.isFor assignment name)).map Stored.value

/-- The values that lines store: one for each line that assigns one, in order, and each
expanded with those that were stored before it. -/
structure Stores (lines : List (List Char)) (values : List Stored) : Prop where
  /-- The values are in the order of their lines. -/
  inOrder : values.Pairwise fun first second => first.index < second.index
  /-- They are those of the lines that assign one. -/
  mem_iff : ∀ index line,
    (∃ value, ⟨index, line, value⟩ ∈ values) ↔ Assigns lines index line
  /-- They are expanded with the values before them. -/
  expanded : ∀ earlier stored later, values = earlier ++ stored :: later →
    ∃ parts, Splits stored.line.value parts
      ∧ stored.value = expansion (latest earlier .variable) parts

variable {lines done rest : List (List Char)} {written : List Char} {index : Nat}
variable {line : Line} {parts : List Part} {flaw : Flaw}
variable {values : List Stored} {name : String}

/-! ## The last value -/

theorem latest_append
    (values : List Stored)
    (stored : Stored)
    (assignment : Assignment)
    (name : String) :
    latest (values ++ [stored]) assignment name =
      if stored.isFor assignment name then some stored.value
      else latest values assignment name := by
  unfold latest
  rw [List.reverse_append, List.reverse_singleton, List.singleton_append, List.find?_cons]
  cases stored.isFor assignment name <;> rfl

theorem isSome_latest_iff {assignment : Assignment} :
    (latest values assignment name).isSome = true ↔
      ∃ stored ∈ values, stored.line.assignment = assignment
        ∧ stored.line.name = name := by
  simp [latest, Stored.isFor]

/-! ## Lines that do not fit -/

theorem Assigns.lt_length (assigns : Assigns lines index line) : index < lines.length := by
  obtain ⟨written, isLine, -⟩ := assigns
  exact (List.getElem?_eq_some_iff.mp isLine).1

theorem Offends.lt_length (offends : Offends lines index flaw) : index < lines.length := by
  cases offends with
  | malformed isLine => exact (List.getElem?_eq_some_iff.mp isLine).1
  | undefined assigns => exact assigns.lt_length

/-- Something is wrong with every line that does not fit. -/
theorem exists_offends (notFits : ¬ Fits lines index) :
    ∃ flaw, Offends lines index flaw := by
  classical
  simp only [Fits, not_forall, not_or] at notFits
  obtain ⟨written, isLine, notBlank, notFits⟩ := notFits
  by_cases isWritten : ∃ line, Line.Writes written line
  · obtain ⟨line, writes⟩ := isWritten
    obtain ⟨parts, splits⟩ := exists_splits line.value
    have isUndefined : ¬ ∀ name ∈ used parts, Defines lines index name :=
      fun areDefined => notFits ⟨line, parts, writes, splits, areDefined⟩
    obtain ⟨name, isFirst⟩ : ∃ name,
        (used parts).find? (fun name => ¬ Defines lines index name) = some name := by
      rw [← Option.isSome_iff_exists, List.find?_isSome]
      simpa using isUndefined
    obtain ⟨notDefined, earlier, later, areUsed, areDefined⟩ :=
      List.find?_eq_some_iff_append.mp isFirst
    exact ⟨_, .undefined ⟨written, isLine, writes⟩ splits areUsed
      (by simpa using areDefined) (by simpa using notDefined)⟩
  · exact ⟨_, .malformed isLine notBlank (not_exists.mp isWritten)⟩

/-- All lines fit, or there is a first one that does not. -/
theorem fits_or_isFirstFlaw (lines : List (List Char)) :
    (∀ index, Fits lines index) ∨ ∃ flaw, IsFirstFlaw lines flaw := by
  classical
  by_cases areFit : ∀ index, Fits lines index
  · exact .inl areFit
  · have isOffended := not_forall.mp areFit
    obtain ⟨flaw, offends⟩ := exists_offends (Nat.find_spec isOffended)
    refine .inr ⟨flaw, Nat.find isOffended, fun earlier isEarlier => ?_, offends⟩
    exact not_not.mp (Nat.find_min isOffended isEarlier)

/-! ## One line more -/

theorem assigns_append (isEarlier : index < done.length) :
    Assigns (done ++ rest) index line ↔ Assigns done index line := by
  rw [Assigns, List.getElem?_append_left isEarlier, Assigns]

theorem assigns_append_singleton :
    Assigns (done ++ [written]) index line ↔
      Assigns done index line ∨ index = done.length ∧ Line.Writes written line := by
  constructor
  · intro assigns
    by_cases isEarlier : index < done.length
    · exact .inl ((assigns_append isEarlier).mp assigns)
    · have isHere : index = done.length := by
        have isInside := assigns.lt_length
        rw [List.length_append, List.length_singleton] at isInside
        omega
      obtain ⟨_, isLine, writes⟩ := assigns
      rw [isHere, List.getElem?_concat_length, Option.some.injEq] at isLine
      exact .inr ⟨isHere, isLine ▸ writes⟩
  · rintro (assigns | ⟨rfl, writes⟩)
    · exact (assigns_append assigns.lt_length).mpr assigns
    · exact ⟨written, List.getElem?_concat_length, writes⟩

theorem Stores.nil : Stores [] [] where
  inOrder := .nil
  mem_iff index line := by simp [Assigns]
  expanded earlier stored later isSplit := by simp at isSplit

theorem Stores.lt_length (stores : Stores done values) :
    ∀ stored ∈ values, stored.index < done.length :=
  fun stored isStored =>
    ((stores.mem_iff stored.index stored.line).mp ⟨stored.value, isStored⟩).lt_length

/-- A blank line stores nothing. -/
theorem Stores.blank (stores : Stores done values) (isBlank : Line.Says written []) :
    Stores (done ++ [written]) values where
  inOrder := stores.inOrder
  mem_iff index line := by
    rw [stores.mem_iff, assigns_append_singleton, or_iff_left]
    exact fun isHere => isBlank.not_writes line isHere.2
  expanded := stores.expanded

/-- A line that assigns a value stores it expanded. -/
theorem Stores.assigned
    (stores : Stores done values)
    (writes : Line.Writes written line)
    (splits : Splits line.value parts) :
    Stores (done ++ [written])
      (values ++ [⟨done.length, line, expansion (latest values .variable) parts⟩]) where
  inOrder := by
    rw [List.pairwise_append]
    refine ⟨stores.inOrder, List.pairwise_singleton _ _, ?_⟩
    intro stored isStored last isLast
    rw [List.mem_singleton.mp isLast]
    exact stores.lt_length stored isStored
  mem_iff index other := by
    rw [assigns_append_singleton, ← stores.mem_iff]
    simp only [List.mem_append, List.mem_singleton, exists_or, Stored.mk.injEq]
    refine or_congr_right ⟨?_, ?_⟩
    · rintro ⟨_, isHere, rfl, rfl⟩
      exact ⟨isHere, writes⟩
    · rintro ⟨isHere, otherWrites⟩
      have isSame := (Line.writes_iff.mp otherWrites).symm.trans (Line.writes_iff.mp writes)
      exact ⟨_, isHere, Option.some.inj isSame, rfl⟩
  expanded earlier stored later isSplit := by
    rcases List.eq_nil_or_concat later with rfl | ⟨others, last, rfl⟩
    · obtain ⟨rfl, isLast⟩ := List.append_inj' isSplit rfl
      rw [← List.singleton_inj.mp isLast]
      exact ⟨parts, splits, rfl⟩
    · rw [List.concat_eq_append, ← List.cons_append, ← List.append_assoc] at isSplit
      exact stores.expanded earlier stored others (List.append_inj' isSplit rfl).1

/-! ## Only these values -/

/-- The line that a value is stored for, with its position. -/
def Stored.origin (stored : Stored) : Nat × Line :=
  (stored.index, stored.line)

theorem Stores.mem_origins_iff
    (stores : Stores lines values)
    (origin : Nat × Line) :
    origin ∈ values.map Stored.origin ↔ Assigns lines origin.1 origin.2 := by
  rw [← stores.mem_iff, List.mem_map]
  constructor
  · rintro ⟨stored, isStored, rfl⟩
    exact ⟨stored.value, isStored⟩
  · rintro ⟨value, isStored⟩
    exact ⟨_, isStored, rfl⟩

theorem Stores.origins_increase (stores : Stores lines values) :
    (values.map Stored.origin).Pairwise fun first second => first.1 < second.1 :=
  List.pairwise_map.mpr stores.inOrder

theorem Stores.origins_eq
    {others : List Stored}
    (stores : Stores lines values)
    (alsoStores : Stores lines others) :
    values.map Stored.origin = others.map Stored.origin := by
  have distinct : ∀ {values}, Stores lines values → (values.map Stored.origin).Nodup := by
    intro values stores
    refine stores.origins_increase.imp ?_
    rintro origin _ less rfl
    exact Nat.lt_irrefl _ less
  refine List.Perm.eq_of_pairwise ?_ stores.origins_increase alsoStores.origins_increase
    ((List.perm_ext_iff_of_nodup (distinct stores) (distinct alsoStores)).mpr ?_)
  · intro first second _ _ less greater
    exact absurd less (Nat.lt_asymm greater)
  · intro origin
    rw [stores.mem_origins_iff, alsoStores.mem_origins_iff]

/-- Lines store their values in one way. -/
theorem Stores.unique
    {others : List Stored}
    (stores : Stores lines values)
    (alsoStores : Stores lines others) :
    values = others := by
  -- behind values that are the same, the next line is the same, and so is its value
  suffices same : ∀ before rest more, values = before ++ rest → others = before ++ more →
      rest.map Stored.origin = more.map Stored.origin → rest = more from
    same [] values others rfl rfl (stores.origins_eq alsoStores)
  intro before rest
  induction rest generalizing before with
  | nil =>
      intro more _ _ sameOrigins
      exact (List.map_eq_nil_iff.mp sameOrigins.symm).symm
  | cons stored rest restSame =>
      rintro (_ | ⟨other, more⟩) areValues areOthers sameOrigins
      · contradiction
      · obtain ⟨sameOrigin, sameRest⟩ := List.cons.inj sameOrigins
        obtain ⟨sameIndex, sameLine⟩ := Prod.mk.inj sameOrigin
        obtain ⟨parts, splits, isValue⟩ := stores.expanded before stored rest areValues
        obtain ⟨otherParts, otherSplits, isOther⟩ :=
          alsoStores.expanded before other more areOthers
        have sameParts : otherParts = parts := by
          rw [splits_iff.mp splits, splits_iff.mp otherSplits, sameLine]
        have sameValue : stored.value = other.value := by
          rw [isValue, isOther, sameParts]
        obtain rfl : stored = other := Stored.ext sameIndex sameLine sameValue
        rw [restSame (before ++ [stored]) more (by simpa using areValues)
          (by simpa using areOthers) sameRest]

end Description
end PackageFlags
