import PackageFlags.Description.Flaw
import PackageFlags.Json.Value
import PackageFlags.Package

/-!
# Reading the members of a description

A view of one JSON object that knows its place in the document, so that every
flaw names the field and the object it was looked for in. A member that is `null`
is there, and has the wrong shape for every field.
-/

namespace PackageFlags
namespace Description

/-- The members of an object, with the place of the object in the document. -/
structure Members where
  /-- The members by name. -/
  members : NameMap Json.Value
  /-- How flaws call the object. -/
  place : String

namespace Members

/-- The flaw of a field that has another shape than expected. -/
def wrongShape
    {α : Type}
    (here : Members)
    (field : String)
    (expected : Shape) : Except Flaw α :=
  .error (.wrongShape field here.place expected)

/-- The value of a field that must be there. -/
def required (here : Members) (field : String) : Except Flaw Json.Value :=
  match here.members.get? field with
  | some value => .ok value
  | none => .error (.missingField field here.place)

/-- A value that must be a string. -/
def asString
    (here : Members)
    (field : String)
    (value : Json.Value) : Except Flaw String :=
  match value.text? with
  | some text => .ok text
  | none => here.wrongShape field .string

/-- A value that must be an array of strings. -/
def asStrings
    (here : Members)
    (field : String)
    (value : Json.Value) : Except Flaw (List String) :=
  match value.items? with
  | some items =>
      items.mapM fun item =>
        match item.text? with
        | some text => .ok text
        | none => here.wrongShape field .stringArray
  | none => here.wrongShape field .array

/-- Read a field that may be missing. -/
def optional
    {α : Type}
    (here : Members)
    (field : String)
    (read : Json.Value -> Except Flaw α) : Except Flaw (Option α) :=
  match here.members.get? field with
  | some value => (read value).map some
  | none => .ok none

/-- A string that must be there. -/
def requiredString (here : Members) (field : String) : Except Flaw String := do
  here.asString field (← here.required field)

/-- A string that may be missing. -/
def optionalString
    (here : Members)
    (field : String) : Except Flaw (Option String) :=
  here.optional field (here.asString field)

/-- An array of strings that may be missing. -/
def optionalStrings
    (here : Members)
    (field : String) : Except Flaw (Option (List String)) :=
  here.optional field (here.asStrings field)

/-- An array of strings, empty if it is missing. -/
def strings (here : Members) (field : String) : Except Flaw (List String) :=
  (here.optionalStrings field).map fun list => list.getD []

/-- The place that the document itself is called by. -/
def documentPlace : String := "package"

/-- The place of an object inside another one. -/
def placeOf (here : Members) (field : String) : String :=
  if here.place = documentPlace then field else here.place ++ "." ++ field

/-- A value that must be an object. -/
def asMembers
    (here : Members)
    (field : String)
    (value : Json.Value) : Except Flaw Members :=
  match value.members? with
  | some members => .ok { members, place := here.placeOf field }
  | none => here.wrongShape field .object

/-- The key for the languages that have no key of their own. -/
def anyLanguage : String := "*"

/-- The list for a language among lists by key: the last key that names the
language, or else the one for any language. -/
def listFor
    (lists : List (String × List String))
    (language : Language) : Option (List String) :=
  match (lists.filter fun entry =>
      Language.ofName? entry.1 = some language).getLast? with
  | some (_, list) => some list
  | none => lists.lookup anyLanguage

/-- Settings per language: an array stands for every language, an object has
an array under each key. Keys that name no language are read and left out. -/
def perLanguage
    (here : Members)
    (field : String) : Except Flaw (PerLanguage String) :=
  match here.members.get? field with
  | none => .ok PerLanguage.empty
  | some value =>
      match value.items?, value.members? with
      | some _, _ =>
          (here.asStrings field value).map PerLanguage.constant
      | none, some keyed => do
          let lists ← keyed.entries.mapM fun (key, list) => do
            return (key, ← here.asStrings (field ++ "." ++ key) list)
          return PerLanguage.ofFunction (listFor lists)
      | none, none => .error (.notPerLanguage field here.place)

/-- Definitions per language. -/
def definitions
    (here : Members)
    (field : String) : Except Flaw (PerLanguage Definition) :=
  (here.perLanguage field).map (PerLanguage.map Definition.parse)

end Members
end Description
end PackageFlags
