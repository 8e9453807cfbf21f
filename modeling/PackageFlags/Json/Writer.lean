import PackageFlags.Json.Value

/-!
# Writing JSON

Values are written over several lines, two blanks for every level. Empty arrays
and objects take no line of their own. In strings only the quote, the backslash
and the characters below U+0020 are escaped.
-/

namespace PackageFlags
namespace Json

/-- The written form of a hexadecimal digit. -/
def hexDigit (value : Nat) : Char :=
  if value < 10 then
    Char.ofNat ('0'.toNat + value)
  else
    Char.ofNat ('a'.toNat + (value - 10))

/-- A character as it is written in a string. -/
def escape : Char -> List Char
  | '"' => ['\\', '"']
  | '\\' => ['\\', '\\']
  | '\x08' => ['\\', 'b']
  | '\x0c' => ['\\', 'f']
  | '\n' => ['\\', 'n']
  | '\r' => ['\\', 'r']
  | '\t' => ['\\', 't']
  | c =>
      if c.toNat < 0x20 then
        ['\\', 'u', '0', '0', hexDigit (c.toNat / 16), hexDigit (c.toNat % 16)]
      else
        [c]

/-- A string between quotes. -/
def writeString (text : String) : List Char :=
  '"' :: (text.toList.flatMap escape ++ ['"'])

/-- The start of a line at a level. -/
def lineStart (level : Nat) : List Char :=
  '\n' :: List.replicate (2 * level) ' '

mutual

/-- A value whose first line stands at a level. -/
def write (level : Nat) : Value -> List Char
  | .null => "null".toList
  | .bool true => "true".toList
  | .bool false => "false".toList
  | .number written => written.toList
  | .string text => writeString text
  | .array [] => ['[', ']']
  | .array (item :: items) =>
      '[' :: (writeItems (level + 1) (item :: items)
        ++ lineStart level ++ [']'])
  | .object [] => ['\x7b', '\x7d']
  | .object (member :: members) =>
      '\x7b' :: (writeMembers (level + 1) (member :: members)
        ++ lineStart level ++ ['\x7d'])

/-- Items on lines of their own, with commas between them. -/
def writeItems (level : Nat) : List Value -> List Char
  | [] => []
  | [item] => lineStart level ++ write level item
  | item :: items =>
      lineStart level ++ write level item ++ ',' :: writeItems level items

/-- Members on lines of their own, with commas between them. -/
def writeMembers (level : Nat) : List (String × Value) -> List Char
  | [] => []
  | [(name, value)] =>
      lineStart level ++ writeString name ++ ':' :: ' ' :: write level value
  | (name, value) :: members =>
      lineStart level ++ writeString name ++ ':' :: ' ' ::
        (write level value ++ ',' :: writeMembers level members)

end

/-- The text of a value, without a line end after it. -/
def Value.pretty (value : Value) : String :=
  String.ofList (write 0 value)

end Json
end PackageFlags
