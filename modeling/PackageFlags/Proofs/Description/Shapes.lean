import PackageFlags.Description.Members
import PackageFlags.Proofs.Outcome

/-!
# Shapes of members

Which values a field may have, said of the value alone, and that reading a field
succeeds exactly on those.
-/

namespace PackageFlags

/-! ## Shapes of values -/

namespace Json
namespace Value

/-- A string. -/
def IsText (value : Value) : Prop :=
  ∃ text, value = .string text

/-- An array of strings. -/
def IsTextList (value : Value) : Prop :=
  ∃ items, value = .array items ∧ ∀ item ∈ items, item.IsText

/-- An object whose members all have a shape. -/
def IsObjectOf (shape : Value -> Prop) (value : Value) : Prop :=
  ∃ members, value.members? = some members
    ∧ ∀ key member, members.get? key = some member → shape member

/-- One list of strings for every language, or a list under each key. -/
def IsPerLanguage (value : Value) : Prop :=
  value.IsTextList ∨ value.IsObjectOf IsTextList

end Value

/-- A field that is missing or has a shape. -/
def Optional
    (members : NameMap Value)
    (field : String)
    (shape : Value -> Prop) : Prop :=
  ∀ value, members.get? field = some value → shape value

/-- A field that is there and has a shape. -/
def Required
    (members : NameMap Value)
    (field : String)
    (shape : Value -> Prop) : Prop :=
  ∃ value, members.get? field = some value ∧ shape value

end Json

/-- What holds of the entries of a map holds of what is found in it. -/
theorem NameMap.forall_entries_iff
    {α : Type}
    {map : NameMap α}
    {holds : String × α -> Prop} :
    (∀ entry ∈ map.entries, holds entry) ↔
      ∀ name value, map.get? name = some value → holds (name, value) := by
  simp only [get?_eq_some_iff, Prod.forall]

namespace Description

/-! ## Reading members -/

namespace Members

open Json (Optional Required Value)
open Outcome (Succeeds)

variable {here : Members} {field : String} {value : Value}

theorem asString_eq_ok {text : String} :
    here.asString field value = .ok text ↔ value = .string text := by
  cases value <;> simp [asString, Value.text?, wrongShape]

theorem succeeds_asString :
    Succeeds (here.asString field value) ↔ value.IsText := by
  simp only [Succeeds, asString_eq_ok, Value.IsText]

theorem required_eq_ok :
    here.required field = .ok value ↔ here.members.get? field = some value := by
  unfold required
  cases here.members.get? field <;> simp

theorem requiredString_eq_ok {text : String} :
    here.requiredString field = .ok text ↔
      here.members.get? field = some (.string text) := by
  simp [requiredString, Outcome.bind_eq_ok, required_eq_ok, asString_eq_ok]

theorem succeeds_asStrings :
    Succeeds (here.asStrings field value) ↔ value.IsTextList := by
  cases value with
  | array items =>
      simp only [asStrings, Value.items?, Outcome.succeeds_mapM, Value.IsTextList,
        Value.array.injEq, exists_eq_left']
      refine forall₂_congr fun item _ => ?_
      cases item <;> simp [Succeeds, Value.text?, Value.IsText, wrongShape]
  | _ => simp [asStrings, Value.items?, Value.IsTextList, wrongShape]

theorem asMembers_eq_ok {fields : Members} :
    here.asMembers field value = .ok fields ↔
      ∃ members, value.members? = some members
        ∧ { members, place := here.placeOf field } = fields := by
  unfold asMembers
  cases value.members? <;> simp [wrongShape]

theorem exists_asMembers_iff {holds : Members -> Prop} :
    (∃ fields, here.asMembers field value = .ok fields ∧ holds fields) ↔
      ∃ members, value.members? = some members
        ∧ holds { members, place := here.placeOf field } := by
  unfold asMembers
  cases value.members? <;> simp [wrongShape]

theorem succeeds_optional
    {α : Type}
    {read : Value -> Except Flaw α} :
    Succeeds (here.optional field read) ↔
      Optional here.members field fun value => Succeeds (read value) := by
  unfold optional Optional
  cases here.members.get? field with
  | none => simp [Succeeds]
  | some value => simp

theorem exists_optionalString_iff {holds : Option String -> Prop} :
    (∃ stated, here.optionalString field = .ok stated ∧ holds stated) ↔
      here.members.get? field = none ∧ holds none
        ∨ ∃ text, here.members.get? field = some (.string text)
            ∧ holds (some text) := by
  unfold optionalString optional
  cases here.members.get? field with
  | none => simp
  | some value =>
      simp only [Outcome.map_eq_ok, asString_eq_ok]
      cases value <;> simp

theorem succeeds_optionalString :
    Succeeds (here.optionalString field) ↔
      Optional here.members field Value.IsText := by
  simp only [optionalString, succeeds_optional, succeeds_asString]

theorem succeeds_optionalStrings :
    Succeeds (here.optionalStrings field) ↔
      Optional here.members field Value.IsTextList := by
  simp only [optionalStrings, succeeds_optional, succeeds_asStrings]

theorem succeeds_strings :
    Succeeds (here.strings field) ↔
      Optional here.members field Value.IsTextList := by
  simp only [strings, Outcome.succeeds_map, succeeds_optionalStrings]

theorem succeeds_perLanguage :
    Succeeds (here.perLanguage field) ↔
      Optional here.members field Value.IsPerLanguage := by
  unfold perLanguage Optional
  cases here.members.get? field with
  | none => simp [Succeeds]
  | some value =>
      simp only [Option.some.injEq, forall_eq']
      unfold Value.IsPerLanguage
      cases value with
      | array items =>
          simp only [Value.items?, Outcome.succeeds_map, succeeds_asStrings]
          simp [Value.IsObjectOf, Value.members?]
      | object written =>
          have notList : ¬ (Value.object written).IsTextList := by
            simp [Value.IsTextList]
          simp only [Value.items?, Value.members?, Outcome.succeeds_bind,
            Outcome.succeeds_pure, and_true, notList, false_or, Value.IsObjectOf,
            Option.some.injEq, exists_eq_left']
          rw [← Succeeds, Outcome.succeeds_mapM, NameMap.forall_entries_iff]
          refine forall₃_congr fun key list _ => ?_
          simp only [Outcome.succeeds_bind, Outcome.succeeds_pure, and_true]
          exact succeeds_asStrings
      | _ => simp [Value.items?, Value.members?, Value.IsTextList, Value.IsObjectOf]

theorem succeeds_definitions :
    Succeeds (here.definitions field) ↔
      Optional here.members field Value.IsPerLanguage := by
  simp only [definitions, Outcome.succeeds_map, succeeds_perLanguage]

end Members

end Description
end PackageFlags
