import PackageFlags.Flags.Document
import PackageFlags.Proofs.Json.RoundTrip

/-!
# Flags read back from their document

The document of flags is a JSON text, and the flags can be read off its value: a language
without a member has no list, a definition without a value is a plain one, and one that
does not say that it undefines does not. So no two flags share a document.
-/

namespace PackageFlags

namespace Json.Value

variable {α : Type}

/-- The truth value that a value is. -/
def truth? : Value -> Option Bool
  | .bool value => some value
  | _ => none

/-- The elements of an array, if each of them can be read. -/
def listOf? (element : Value -> Option α) (value : Value) : Option (List α) := do
  (← value.items?).mapM element

/-- What a member of an object is read as. -/
def member?
    (value : Value)
    (name : String)
    (read : Value -> Option α) : Option α := do
  read (← (← value.members?).get? name)

/-- What a member of an object is read as, or what it means that there is none. -/
def memberOr?
    (value : Value)
    (name : String)
    (missing : α)
    (read : Value -> Option α) : Option α := do
  match (← value.members?).get? name with
  | none => some missing
  | some member => read member

@[simp] theorem member?_object
    (written : List (String × Value))
    (name : String)
    (read : Value -> Option α) :
    (object written).member? name read =
      (written.reverse.lookup name).bind read := by
  simp [member?, members?, NameMap.get?_ofList]

@[simp] theorem memberOr?_object
    (written : List (String × Value))
    (name : String)
    (missing : α)
    (read : Value -> Option α) :
    (object written).memberOr? name missing read =
      match written.reverse.lookup name with
      | none => some missing
      | some member => read member := by
  simp [memberOr?, members?, NameMap.get?_ofList]

/-- Elements that are read back are read back from an array. -/
theorem listOf?_array
    {element : Value -> Option α}
    {written : α -> Value}
    (isRead : ∀ a, element (written a) = some a)
    (list : List α) :
    (array (list.map written)).listOf? element = some list := by
  rw [listOf?, items?, Option.bind_eq_bind, Option.bind_some]
  induction list with
  | nil => rfl
  | cons first rest restRead =>
      rw [List.map_cons, List.mapM_cons, isRead, restRead]
      rfl

/-- An array is plain if its items are. -/
theorem plain_array_map
    {depth : Nat}
    {written : α -> Value}
    (arePlain : ∀ a, (written a).Plain depth)
    (list : List α) :
    (array (list.map written)).Plain (depth + 1) := by
  refine .array fun item isItem => ?_
  obtain ⟨a, _, rfl⟩ := List.mem_map.mp isItem
  exact arePlain a

end Json.Value

namespace PerLanguage

variable {α : Type}

/-- The settings that a JSON object gives, with a member for each language that has a
list. -/
def ofJson?
    (element : Json.Value -> Option α)
    (value : Json.Value) : Option (PerLanguage α) := do
  let listFor (language : Language) : Option (Option (List α)) :=
    value.memberOr? language.name none fun list => (list.listOf? element).map some
  return {
    c := ← listFor .c
    cxx := ← listFor .cxx
    fortran := ← listFor .fortran }

/-- Settings are read back if their elements are. -/
theorem ofJson?_toJson
    {element : Json.Value -> Option α}
    {written : α -> Json.Value}
    (isRead : ∀ a, element (written a) = some a)
    (settings : PerLanguage α) :
    ofJson? element (settings.toJson written) = some settings := by
  obtain ⟨c, cxx, fortran⟩ := settings
  cases c <;> cases cxx <;> cases fortran <;>
    simp [ofJson?, toJson, toList, Language.all, get?, Language.name,
      NameMap.lookup_entry_cons, Json.Value.listOf?_array isRead]

/-- Settings are plain if their elements are. -/
theorem plain_toJson
    {depth : Nat}
    {written : α -> Json.Value}
    (arePlain : ∀ a, (written a).Plain depth)
    (settings : PerLanguage α) :
    (settings.toJson written).Plain (depth + 2) := by
  refine .object fun member isMember => ?_
  obtain ⟨entry, _, rfl⟩ := List.mem_map.mp isMember
  exact Json.Value.plain_array_map arePlain entry.2

end PerLanguage

namespace Definition

/-- The definition that a JSON object makes. -/
def ofJson? (value : Json.Value) : Option Definition := do
  return {
    name := ← value.member? "name" Json.Value.text?
    value := ← value.memberOr? "value" none fun text => text.text?.map some
    undefine := ← value.memberOr? "undefine" false Json.Value.truth? }

/-- Definitions of any form are read back. -/
theorem ofJson?_toJson (definition : Definition) :
    ofJson? definition.toJson = some definition := by
  obtain ⟨name, value, undefine⟩ := definition
  cases value <;> cases undefine <;>
    simp [ofJson?, toJson, NameMap.lookup_entry_cons, Json.Value.text?, Json.Value.truth?]

theorem plain_toJson (depth : Nat) (definition : Definition) :
    definition.toJson.Plain (depth + 1) := by
  obtain ⟨name, value, undefine⟩ := definition
  refine .object ?_
  cases value <;> cases undefine <;>
    simp [Json.Value.Plain.string, Json.Value.Plain.bool]

end Definition

namespace Flags

/-- The flags that a JSON object gives. -/
def ofJson? (value : Json.Value) : Option Flags := do
  return {
    version := ← value.member? "version" Json.Value.text?
    compileFlags :=
      ← value.member? "compile_flags" (PerLanguage.ofJson? Json.Value.text?)
    includes := ← value.member? "includes" (PerLanguage.ofJson? Json.Value.text?)
    definitions :=
      ← value.member? "definitions" (PerLanguage.ofJson? Definition.ofJson?)
    linkFlags := ← value.member? "link_flags" (Json.Value.listOf? Json.Value.text?)
    linkLibraries :=
      ← value.member? "link_libraries" (Json.Value.listOf? Json.Value.text?)
    linkLocations :=
      ← value.member? "link_location" (Json.Value.listOf? Json.Value.text?) }

/-- Flags are read back from their value. -/
theorem ofJson?_toJson (flags : Flags) : ofJson? flags.toJson = some flags := by
  have isText : ∀ text, Json.Value.text? (.string text) = some text := fun _ => rfl
  simp [ofJson?, toJson, Json.ofStrings, NameMap.lookup_entry_cons, Json.Value.text?,
    PerLanguage.ofJson?_toJson isText, Json.Value.listOf?_array isText,
    PerLanguage.ofJson?_toJson Definition.ofJson?_toJson]

/-- The value of flags is nested four deep. -/
theorem plain_toJson (depth : Nat) (flags : Flags) :
    flags.toJson.Plain (depth + 4) := by
  have ofTexts (list : List String) : (Json.ofStrings list).Plain (depth + 3) :=
    Json.Value.plain_array_map (Json.Value.Plain.string (depth + 2)) list
  have ofTextsPer (settings : PerLanguage String) :
      (settings.toJson Json.Value.string).Plain (depth + 3) :=
    PerLanguage.plain_toJson (Json.Value.Plain.string (depth + 1)) settings
  have ofDefinitions :
      (flags.definitions.toJson Definition.toJson).Plain (depth + 3) :=
    PerLanguage.plain_toJson (Definition.plain_toJson depth) flags.definitions
  refine .object ?_
  simp only [List.forall_mem_cons]
  exact ⟨.string _ _, ofTextsPer _, ofTextsPer _, ofDefinitions, ofTexts _, ofTexts _,
    ofTexts _, nofun⟩

/-- The document of flags is a JSON text of a value that the flags are read back from,
and different flags have different documents. -/
theorem document_lossless :
    (∀ flags : Flags, ∃ value, Json.parse flags.document = some value
        ∧ ofJson? value = some flags)
      ∧ Function.Injective document := by
  have isParsed (flags : Flags) : Json.parse flags.document = some flags.toJson :=
    (flags.plain_toJson 123).parse_pretty
  refine ⟨fun flags => ⟨flags.toJson, isParsed flags, flags.ofJson?_toJson⟩, ?_⟩
  intro left right sameText
  have sameValue : left.toJson = right.toJson := by
    rw [← Option.some.injEq, ← isParsed, ← isParsed, sameText]
  have sameFlags : some left = some right := by
    rw [← ofJson?_toJson, ← ofJson?_toJson, sameValue]
  exact Option.some.inj sameFlags

end Flags
end PackageFlags
