import Mathlib.Data.List.Induction
import PackageFlags.Proofs.Description.StoredValues
import PackageFlags.Proofs.Outcome

/-!
# Descriptions line by line

Lines are added one behind the other, and each finds what those before it stored. So
reading a description finds exactly what its lines store, or what is wrong with the first
line that does not fit.
-/

namespace PackageFlags
namespace Description

variable {lines done rest : List (List Char)} {written : List Char} {number : Nat}
variable {line : Line} {parts : List Part} {flaw : Flaw}
variable {values : List Stored} {known : Properties} {name : String}

/-! ## Assigning -/

namespace Properties

/-- A value put under the name of a line. -/
def store (known : Properties) (line : Line) (value : String) : Properties :=
  match line.assignment with
  | .variable => { known with bindings := known.bindings ++ [(line.name, value)] }
  | .property => { known with properties := known.properties.insert line.name value }

theorem assign_eq (known : Properties) (line : Line) :
    known.assign line = (known.expand line.value).map (known.store line) := by
  unfold assign store
  cases known.expand line.value <;> cases line.assignment <;> rfl

theorem valueOf?_append (known : Properties) (name other value : String) :
    valueOf? { known with bindings := known.bindings ++ [(name, value)] } other =
      if other = name then some value else known.valueOf? other := by
  unfold valueOf?
  rw [List.reverse_append, List.reverse_singleton, List.singleton_append,
    NameMap.lookup_entry_cons]

/-! ## Replacing variables -/

variable {value : List Char} {earlier later : List String}

theorem mapM_expandPart_eq_ok
    (areDefined : ∀ name ∈ used parts, (known.valueOf? name).isSome = true) :
    parts.mapM known.expandPart = .ok (parts.map (Part.text known.valueOf?)) := by
  induction parts with
  | nil => rfl
  | cons part rest restExpands =>
      match part with
      | .character c =>
          rw [List.mapM_cons, restExpands areDefined]
          rfl
      | .variable name =>
          obtain ⟨isDefined, restDefined⟩ := List.forall_mem_cons.mp areDefined
          obtain ⟨value, isValue⟩ := Option.isSome_iff_exists.mp isDefined
          rw [List.mapM_cons, restExpands restDefined, List.map_cons, Part.text, expandPart,
            isValue]
          rfl

theorem mapM_expandPart_eq_error
    (areUsed : used parts = earlier ++ name :: later)
    (areDefined : ∀ other ∈ earlier, (known.valueOf? other).isSome = true)
    (notDefined : known.valueOf? name = none) :
    parts.mapM known.expandPart = .error (.undefinedVariable name) := by
  induction parts generalizing earlier with
  | nil => cases earlier <;> contradiction
  | cons part rest restFails =>
      match part with
      | .character c =>
          rw [List.mapM_cons, restFails areUsed areDefined]
          rfl
      | .variable other =>
          cases earlier with
          | nil =>
              obtain ⟨rfl, -⟩ := List.cons.inj areUsed
              rw [List.mapM_cons, expandPart, notDefined]
              rfl
          | cons first earlier =>
              obtain ⟨rfl, restUsed⟩ := List.cons.inj areUsed
              obtain ⟨isDefined, restDefined⟩ := List.forall_mem_cons.mp areDefined
              obtain ⟨value, isValue⟩ := Option.isSome_iff_exists.mp isDefined
              rw [List.mapM_cons, expandPart, isValue, restFails restUsed restDefined]
              rfl

/-- A value that uses defined variables only is expanded. -/
theorem expand_eq_ok
    (splits : Splits value parts)
    (areDefined : ∀ name ∈ used parts, (known.valueOf? name).isSome = true) :
    known.expand value = .ok (expansion known.valueOf? parts) := by
  rw [expand, ← splits_iff.mp splits, mapM_expandPart_eq_ok areDefined, expansion,
    List.flatMap_def]
  rfl

/-- The first variable of a value that is not defined is reported. -/
theorem expand_eq_error
    (splits : Splits value parts)
    (areUsed : used parts = earlier ++ name :: later)
    (areDefined : ∀ other ∈ earlier, (known.valueOf? other).isSome = true)
    (notDefined : known.valueOf? name = none) :
    known.expand value = .error (.undefinedVariable name) := by
  rw [expand, ← splits_iff.mp splits,
    mapM_expandPart_eq_error areUsed areDefined notDefined]
  rfl

/-! ## Adding a line -/

theorem addLine_of_blank (isBlank : Line.Says written []) :
    known.addLine number written = .ok known := by
  rw [addLine, Line.says_iff.mp isBlank]

theorem addLine_of_writes (writes : Line.Writes written line) :
    known.addLine number written = known.assign line := by
  have isRead := Line.writes_iff.mp writes
  unfold addLine
  split
  · rename_i isBlank
    exact absurd writes (Line.Says.not_writes (Line.says_iff.mpr isBlank) line)
  · rw [isRead]

theorem addLine_of_malformed
    (notBlank : ¬ Line.Says written [])
    (notWritten : ∀ line, ¬ Line.Writes written line) :
    known.addLine number written = .error (.malformedLine number) := by
  unfold addLine
  split
  · rename_i isBlank
    exact absurd (Line.says_iff.mpr isBlank) notBlank
  · split
    · rename_i line isRead
      exact absurd (Line.writes_iff.mpr isRead) (notWritten line)
    · rfl

theorem addLines_append
    (known : Properties)
    (number : Nat)
    (before after : List (List Char)) :
    known.addLines number (before ++ after) =
      known.addLines number before >>= fun between =>
        between.addLines (number + before.length) after := by
  induction before generalizing known number with
  | nil => rfl
  | cons written before beforeAdds =>
      rw [List.cons_append, addLines, addLines, bind_assoc]
      congr 1
      funext next
      rw [beforeAdds, List.length_cons, Nat.add_assoc, Nat.add_comm 1]

end Properties

/-! ## What is known of stored values -/

/-- Stored values as variables and properties. -/
structure Holds (values : List Stored) (known : Properties) : Prop where
  /-- All values of variables, in order. -/
  bindings : known.bindings =
    (values.filter fun stored => stored.line.assignment = .variable).map
      fun stored => (stored.line.name, stored.value)
  /-- The last value of each variable. -/
  valueOf? : ∀ name, known.valueOf? name = latest values .variable name
  /-- The last value of each property. -/
  properties : ∀ name, known.properties.get? name = latest values .property name

theorem Holds.nil : Holds [] {} where
  bindings := rfl
  valueOf? _ := rfl
  properties _ := rfl

theorem Holds.store
    (holds : Holds values known)
    (index : Nat)
    (line : Line)
    (value : String) :
    Holds (values ++ [⟨index, line, value⟩]) (known.store line value) := by
  obtain ⟨name, assignment, written⟩ := line
  match assignment with
  | .variable =>
      constructor
      · simp [Properties.store, holds.bindings]
      · intro other
        rw [latest_append, ← holds.valueOf?, Properties.store, Properties.valueOf?_append]
        simp [Stored.isFor, eq_comm]
      · intro other
        rw [latest_append, ← holds.properties]
        simp [Stored.isFor, Properties.store]
  | .property =>
      constructor
      · simp [Properties.store, holds.bindings]
      · intro other
        rw [latest_append, ← holds.valueOf?]
        simp [Stored.isFor, Properties.store, Properties.valueOf?]
      · intro other
        rw [latest_append, ← holds.properties, Properties.store, NameMap.get?_insert]
        simp [Stored.isFor, eq_comm]

/-- A variable has a value when it is defined before the next line. -/
theorem Holds.isSome_valueOf?_iff
    (holds : Holds values known)
    (stores : Stores done values)
    (rest : List (List Char)) :
    (known.valueOf? name).isSome = true ↔ Defines (done ++ rest) done.length name := by
  rw [holds.valueOf?, isSome_latest_iff]
  constructor
  · rintro ⟨stored, isStored, isVariable, isName⟩
    have assigns := (stores.mem_iff stored.index stored.line).mp ⟨stored.value, isStored⟩
    exact ⟨stored.index, stored.line, assigns.lt_length,
      (assigns_append assigns.lt_length).mpr assigns, isVariable, isName⟩
  · rintro ⟨earlier, line, isEarlier, assigns, isVariable, isName⟩
    obtain ⟨value, isStored⟩ :=
      (stores.mem_iff earlier line).mpr ((assigns_append isEarlier).mp assigns)
    exact ⟨_, isStored, isVariable, isName⟩

theorem Holds.unique
    {other : Properties}
    (holds : Holds values known)
    (alsoHolds : Holds values other) :
    known = other := by
  obtain ⟨bindings, properties⟩ := known
  obtain ⟨otherBindings, otherProperties⟩ := other
  obtain rfl : bindings = otherBindings := holds.bindings.trans alsoHolds.bindings.symm
  obtain rfl : properties = otherProperties := NameMap.ext fun name =>
    (holds.properties name).trans (alsoHolds.properties name).symm
  rfl

/-! ## One line more -/

/-- A line that fits is added, and what it stores with it. -/
theorem addLine_of_fits
    (stores : Stores done values)
    (holds : Holds values known)
    (fits : Fits (done ++ written :: rest) done.length)
    (number : Nat) :
    ∃ next more, known.addLine number written = .ok next
      ∧ Stores (done ++ [written]) more ∧ Holds more next := by
  rcases fits written (by simp) with isBlank | ⟨line, parts, writes, splits, areDefined⟩
  · exact ⟨known, values, Properties.addLine_of_blank isBlank, stores.blank isBlank, holds⟩
  · refine ⟨_, _, ?_, stores.assigned writes splits, holds.store done.length line _⟩
    have isExpanded : known.expand line.value = .ok (expansion known.valueOf? parts) :=
      Properties.expand_eq_ok splits fun name isUsed =>
        (holds.isSome_valueOf?_iff stores (written :: rest)).mpr (areDefined name isUsed)
    rw [Properties.addLine_of_writes writes, Properties.assign_eq, isExpanded,
      funext holds.valueOf?]
    rfl

/-- What is wrong with a line is reported. -/
theorem addLine_of_offends
    (stores : Stores done values)
    (holds : Holds values known)
    (offends : Offends (done ++ written :: rest) done.length flaw) :
    known.addLine (done.length + 1) written = .error flaw := by
  cases offends with
  | malformed isLine notBlank notWritten =>
      obtain rfl : written = _ := by simpa using isLine
      exact Properties.addLine_of_malformed notBlank notWritten
  | @undefined _ _ _ _ name assigns splits areUsed areDefined notDefined =>
      obtain ⟨_, isLine, writes⟩ := assigns
      obtain rfl : written = _ := by simpa using isLine
      have isUndefined : known.valueOf? name = none := by
        rwa [← holds.isSome_valueOf?_iff stores, Option.not_isSome_iff_eq_none]
          at notDefined
      have isFailed := Properties.expand_eq_error splits areUsed
        (fun other isOther => (holds.isSome_valueOf?_iff stores (written :: rest)).mpr
          (areDefined other isOther))
        isUndefined
      rw [Properties.addLine_of_writes writes, Properties.assign_eq, isFailed]
      rfl

/-! ## All lines -/

namespace Properties

/-- Lines that fit are added, whatever follows them. -/
theorem addLines_of_fits
    (rest : List (List Char))
    (areFit : ∀ index < done.length, Fits (done ++ rest) index) :
    ∃ known values, ({} : Properties).addLines 1 done = .ok known
      ∧ Stores done values ∧ Holds values known := by
  -- the lines are added one behind the other, and each finds what those before it stored
  induction done using List.reverseRecOn generalizing rest with
  | nil => exact ⟨_, _, rfl, Stores.nil, Holds.nil⟩
  | append_singleton done written doneAdded =>
      rw [List.append_assoc, List.singleton_append, List.length_append,
        List.length_singleton] at areFit
      obtain ⟨known, values, isAdded, stores, holds⟩ :=
        doneAdded _ fun index isEarlier => areFit index (Nat.lt_succ_of_lt isEarlier)
      obtain ⟨next, more, isNext, stored⟩ := addLine_of_fits stores holds
        (areFit done.length (Nat.lt_succ_self _)) (1 + done.length)
      refine ⟨next, more, ?_, stored⟩
      rw [addLines_append, isAdded]
      exact (congrArg (· >>= pure) isNext :)

/-- Nothing is added behind the first line that does not fit. -/
theorem addLines_of_isFirstFlaw (isFirst : IsFirstFlaw lines flaw) :
    ({} : Properties).addLines 1 lines = .error flaw := by
  obtain ⟨index, areFit, offends⟩ := isFirst
  obtain ⟨done, written, rest, rfl, rfl⟩ : ∃ done written rest,
      lines = done ++ written :: rest ∧ done.length = index := by
    have isInside := offends.lt_length
    exact ⟨lines.take index, lines[index], lines.drop (index + 1),
      by rw [List.getElem_cons_drop, List.take_append_drop],
      List.length_take_of_le (Nat.le_of_lt isInside)⟩
  obtain ⟨known, values, isAdded, stores, holds⟩ := addLines_of_fits _ areFit
  have isFailed := addLine_of_offends stores holds offends
  rw [addLines_append, isAdded]
  exact Outcome.bind_eq_error.mpr (.inr ⟨known, rfl, Outcome.bind_eq_error.mpr
    (.inl (Nat.add_comm 1 done.length ▸ isFailed))⟩)

/-- No line takes a variable away or changes its value. -/
theorem bindings_addLine
    {next : Properties}
    (isAdded : known.addLine number written = .ok next) :
    known.bindings <+: next.bindings := by
  by_cases isBlank : Line.Says written []
  · rw [addLine_of_blank isBlank] at isAdded
    cases isAdded
    exact List.prefix_rfl
  · by_cases isWritten : ∃ line, Line.Writes written line
    · obtain ⟨line, writes⟩ := isWritten
      rw [addLine_of_writes writes, assign_eq, Outcome.map_eq_ok] at isAdded
      obtain ⟨value, -, rfl⟩ := isAdded
      unfold store
      split
      · exact List.prefix_append _ _
      · exact List.prefix_rfl
    · rw [addLine_of_malformed isBlank (not_exists.mp isWritten)] at isAdded
      contradiction

theorem bindings_addLines
    {later : Properties}
    (areAdded : known.addLines number lines = .ok later) :
    known.bindings <+: later.bindings := by
  induction lines generalizing known number with
  | nil =>
      cases areAdded
      exact List.prefix_rfl
  | cons written rest restKeeps =>
      obtain ⟨next, isAdded, areOthers⟩ := Outcome.bind_eq_ok.mp areAdded
      exact (bindings_addLine isAdded).trans (restKeeps areOthers)

/-- The variables of a text that has a beginning start with those of the beginning. -/
theorem bindings_parse_append
    {before after : String}
    {later : Properties}
    (isRead : parse (before ++ "\n" ++ after) = .ok later) :
    ∃ known, parse before = .ok known ∧ known.bindings <+: later.bindings := by
  unfold parse at isRead
  rw [String.toList_append, String.toList_append, List.append_assoc] at isRead
  change addLines _ _ (Text.pieces _ (before.toList ++ '\n' :: after.toList)) = _ at isRead
  rw [Text.pieces_append_cons (by rfl), addLines_append] at isRead
  obtain ⟨known, isBefore, areOthers⟩ := Outcome.bind_eq_ok.mp isRead
  exact ⟨known, isBefore, bindings_addLines areOthers⟩

/-- A text is read when all of its lines fit. Then what its lines say is stored and nothing
else, each value with those of the variables before it; a beginning of the text stores the
same for its lines, whatever follows. Otherwise the first line that does not fit is
reported. -/
theorem parse_line_by_line (text : String) :
    ∃ lines, (∀ others, AreLines text others ↔ others = lines)
      ∧ ((∃ known, parse text = .ok known) ↔ ∀ index, Fits lines index)
      ∧ (∀ known, parse text = .ok known ↔
          (∀ index, Fits lines index) ∧ ∃ values, Stores lines values ∧ Holds values known)
      ∧ (∀ before after later, text = before ++ "\n" ++ after → parse text = .ok later →
          ∃ known, parse before = .ok known ∧ known.bindings <+: later.bindings)
      ∧ ∀ flaw, parse text = .error flaw ↔ IsFirstFlaw lines flaw := by
  obtain ⟨lines, areLines, isParsed⟩ : ∃ lines, (∀ others, AreLines text others ↔
      others = lines) ∧ parse text = ({} : Properties).addLines 1 lines :=
    ⟨_, fun _ => areLines_iff, rfl⟩
  have isRead : (∀ index, Fits lines index) → ∃ known values, parse text = .ok known
      ∧ Stores lines values ∧ Holds values known := by
    intro areFit
    rw [isParsed]
    exact addLines_of_fits [] fun index _ => (List.append_nil _).symm ▸ areFit index
  have areFit : ∀ known, parse text = .ok known → ∀ index, Fits lines index := by
    intro known isKnown
    refine (fits_or_isFirstFlaw lines).resolve_right ?_
    rintro ⟨flaw, isFirst⟩
    rw [isParsed, addLines_of_isFirstFlaw isFirst] at isKnown
    contradiction
  refine ⟨lines, areLines, ⟨?_, ?_⟩, fun known => ⟨fun isKnown => ?_, ?_⟩, ?_,
    fun flaw => ⟨fun isFailed => ?_, fun isFirst => ?_⟩⟩
  · rintro ⟨known, isKnown⟩
    exact areFit known isKnown
  · intro fits
    obtain ⟨known, -, isKnown, -⟩ := isRead fits
    exact ⟨known, isKnown⟩
  · obtain ⟨_, values, isSame, stored⟩ := isRead (areFit known isKnown)
    cases isKnown.symm.trans isSame
    exact ⟨areFit known isKnown, values, stored⟩
  · rintro ⟨fits, values, stores, holds⟩
    obtain ⟨other, others, isOther, alsoStores, alsoHolds⟩ := isRead fits
    cases stores.unique alsoStores
    rw [isOther, holds.unique alsoHolds]
  · rintro before after later rfl isLater
    exact bindings_parse_append isLater
  · rcases fits_or_isFirstFlaw lines with fits | ⟨other, isFirst⟩
    · obtain ⟨known, -, isKnown, -⟩ := isRead fits
      cases isFailed.symm.trans isKnown
    · rw [isParsed, addLines_of_isFirstFlaw isFirst] at isFailed
      cases isFailed
      exact isFirst
  · rw [isParsed]
    exact addLines_of_isFirstFlaw isFirst

/-- A text with a variable that is defined again behind its use, and another one that is
used in a comment only. -/
def shadowing : String :=
  "a = 1\nb: $\x7ba\x7d\na = 2 # $\x7bc\x7d"

/-- The lines of that text. -/
def shadowingLines : List (List Char) :=
  ["a = 1".toList, "b: $\x7ba\x7d".toList, "a = 2 # $\x7bc\x7d".toList]

/-- The property keeps the value that the variable had at its line, and the variable has
both values in turn. -/
theorem parse_line_by_line_shadowing :
    AreLines shadowing shadowingLines
      ∧ (∀ index, Fits shadowingLines index)
      ∧ ∃ known values, parse shadowing = .ok known ∧ Stores shadowingLines values
          ∧ Holds values known ∧ known.bindings = [("a", "1"), ("a", "2")]
          ∧ latest values .property "b" = some "1" := by
  have areLines : AreLines shadowing shadowingLines := {
    notNone := by decide
    joined := by decide +kernel
    unbroken := by decide +kernel }
  have evaluated : (parse shadowing).toOption.map (fun known =>
      (known.bindings, known.properties.get? "b")) =
        some ([("a", "1"), ("a", "2")], some "1") := by
    decide +kernel
  obtain ⟨known, isRead, same⟩ := Option.map_eq_some_iff.mp evaluated
  obtain ⟨areBound, isProperty⟩ := Prod.mk.inj same
  obtain ⟨lines, areOnly, _, stored, _⟩ := parse_line_by_line shadowing
  obtain rfl := (areOnly _).mp areLines
  have isParsed := Outcome.eq_ok_of_toOption isRead
  obtain ⟨areFit, values, stores, holds⟩ := (stored known).mp isParsed
  exact ⟨areLines, areFit, known, values, isParsed, stores, holds, areBound,
    (holds.properties "b").symm.trans isProperty⟩

end Properties
end Description
end PackageFlags
