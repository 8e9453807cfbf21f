import PackageFlags.NameMap

/-!
# JSON values

A number is kept as it was written, and an object lists its members in the order
of the text, with repeated names. Reading an object goes through `Value.members?`:
members in name order, and of several with one name the last.
-/

namespace PackageFlags
namespace Json

/-- A JSON value. -/
inductive Value
  | null
  | bool (value : Bool)
  | number (written : String)
  | string (text : String)
  | array (items : List Value)
  | object (written : List (String × Value))

namespace Value

/-- The text of a string. -/
def text? : Value -> Option String
  | .string text => some text
  | _ => none

/-- The items of an array. -/
def items? : Value -> Option (List Value)
  | .array items => some items
  | _ => none

/-- The members of an object by name. -/
def members? : Value -> Option (NameMap Value)
  | .object written => some (NameMap.ofList written)
  | _ => none

end Value
end Json
end PackageFlags
