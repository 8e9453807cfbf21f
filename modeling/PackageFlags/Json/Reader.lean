import PackageFlags.Json.Magnitude
import PackageFlags.Json.Value
import PackageFlags.Text.Pieces

/-!
# Reading JSON

A reader takes what it recognizes off the front of a text and returns the rest.
Arrays and objects are read by recursion on how deeply they may still be nested;
the number of their items is bounded by the length of the text. The grammar is
that of RFC 8259 without extensions: no byte order mark, no characters below
U+0020 in strings, no lone surrogates, no number beyond a double.
-/

namespace PackageFlags
namespace Json

/-- Whether a character may stand between the tokens of a JSON text. -/
def isSpace (c : Char) : Bool :=
  c = ' ' || c = '\t' || c = '\n' || c = '\r'

/-- A text without the space in front of it. -/
def skipSpace (text : List Char) : List Char :=
  text.dropWhile isSpace

/-- The value of a hexadecimal digit. -/
def hexValue? (c : Char) : Option Nat :=
  if '0' ≤ c ∧ c ≤ '9' then
    some (c.toNat - '0'.toNat)
  else if 'a' ≤ c ∧ c ≤ 'f' then
    some (c.toNat - 'a'.toNat + 10)
  else if 'A' ≤ c ∧ c ≤ 'F' then
    some (c.toNat - 'A'.toNat + 10)
  else
    none

/-- The value of four hexadecimal digits. -/
def hexUnit? (a b c d : Char) : Option Nat := do
  return (((← hexValue? a) * 16 + (← hexValue? b)) * 16
    + (← hexValue? c)) * 16 + (← hexValue? d)

/-- Whether a UTF-16 unit is the first half of a pair. -/
def isHighSurrogate (unit : Nat) : Bool := 0xD800 ≤ unit && unit ≤ 0xDBFF

/-- Whether a UTF-16 unit is the second half of a pair. -/
def isLowSurrogate (unit : Nat) : Bool := 0xDC00 ≤ unit && unit ≤ 0xDFFF

/-- The character that a pair of surrogates stands for. -/
def surrogatePair (high low : Nat) : Char :=
  Char.ofNat (0x10000 + (high - 0xD800) * 0x400 + (low - 0xDC00))

/-- The character that one letter after a backslash stands for. -/
def simpleEscape? : Char -> Option Char
  | '"' => some '"'
  | '\\' => some '\\'
  | '/' => some '/'
  | 'b' => some '\x08'
  | 'f' => some '\x0c'
  | 'n' => some '\n'
  | 'r' => some '\r'
  | 't' => some '\t'
  | _ => none

/-- Put a character in front of what a reader has read. -/
def withFirst
    (c : Char)
    (read : Option (List Char × List Char)) :
    Option (List Char × List Char) :=
  read.map fun (text, rest) => (c :: text, rest)

/-- The characters of a string up to its closing quote. -/
def readString : List Char -> Option (List Char × List Char)
  | [] => none
  | '"' :: rest => some ([], rest)
  | '\\' :: 'u' :: a :: b :: c :: d :: rest =>
      match hexUnit? a b c d with
      | none => none
      | some unit =>
          if isHighSurrogate unit then
            match rest with
            | '\\' :: 'u' :: e :: f :: g :: h :: rest =>
                match hexUnit? e f g h with
                | none => none
                | some low =>
                    if isLowSurrogate low then
                      withFirst (surrogatePair unit low) (readString rest)
                    else
                      none
            | _ => none
          else if isLowSurrogate unit then
            none
          else
            withFirst (Char.ofNat unit) (readString rest)
  | '\\' :: letter :: rest =>
      match simpleEscape? letter with
      | some c => withFirst c (readString rest)
      | none => none
  | c :: rest =>
      if c = '\\' ∨ c.toNat < 0x20 then
        none
      else
        withFirst c (readString rest)

/-- The digits at the front of a text, at least one. -/
def readDigits (text : List Char) : Option (List Char × List Char) :=
  match text.takeWhile Char.isDigit with
  | [] => none
  | digits => some (digits, text.dropWhile Char.isDigit)

/-- The sign at the front of a text, if there is one. -/
def readSign : List Char -> List Char × List Char
  | '+' :: rest => (['+'], rest)
  | '-' :: rest => (['-'], rest)
  | rest => ([], rest)

/-- The digits after a point, none if there is no point. -/
def readFraction : List Char -> Option (List Char × List Char)
  | '.' :: rest => readDigits rest
  | rest => some ([], rest)

/-- The mark, the sign and the digits of an exponent. -/
abbrev Exponent := Char × List Char × List Char

/-- An exponent after its mark. -/
def readMarkedExponent
    (mark : Char)
    (text : List Char) : Option (Option Exponent × List Char) :=
  let (sign, rest) := readSign text
  (readDigits rest).map fun (digits, rest) =>
    (some (mark, sign, digits), rest)

/-- An exponent, none if there is no mark of one. -/
def readExponent : List Char -> Option (Option Exponent × List Char)
  | 'e' :: rest => readMarkedExponent 'e' rest
  | 'E' :: rest => readMarkedExponent 'E' rest
  | rest => some (none, rest)

/-- The number that digits write. -/
def decimalValue (digits : List Char) : Nat :=
  digits.foldl (fun value c => value * 10 + Magnitude.digitValue c) 0

/-- The value of an exponent, zero if there is none. -/
def exponentValue : Option Exponent -> Int
  | none => 0
  | some (_, ['-'], digits) => -(decimalValue digits : Int)
  | some (_, _, digits) => decimalValue digits

/-- The written form of the parts of a number. -/
def writtenNumber
    (negative : Bool)
    (whole fraction : List Char)
    (exponent : Option Exponent) : List Char :=
  (if negative then ['-'] else []) ++ whole
    ++ (if fraction.isEmpty then [] else '.' :: fraction)
    ++ (match exponent with
        | none => []
        | some (mark, sign, digits) => mark :: (sign ++ digits))

/-- A number without its sign. Only a lone zero may begin with a zero. -/
def readUnsigned
    (negative : Bool)
    (text : List Char) : Option (Value × List Char) := do
  let (whole, rest) ← readDigits text
  if whole.head? = some '0' ∧ whole ≠ ['0'] then
    none
  else
    let (fraction, rest) ← readFraction rest
    let (exponent, rest) ← readExponent rest
    if Magnitude.accepts whole fraction (exponentValue exponent) then
      let written := writtenNumber negative whole fraction exponent
      some (.number (String.ofList written), rest)
    else
      none

/-- A value that is no array and no object. -/
def readScalar : List Char -> Option (Value × List Char)
  | '"' :: rest =>
      (readString rest).map fun (text, rest) =>
        (.string (String.ofList text), rest)
  | '-' :: rest => readUnsigned true rest
  | text =>
      match Text.dropLead "null".toList text with
      | some rest => some (.null, rest)
      | none =>
          match Text.dropLead "true".toList text with
          | some rest => some (.bool true, rest)
          | none =>
              match Text.dropLead "false".toList text with
              | some rest => some (.bool false, rest)
              | none => readUnsigned false text

/-- What follows a mark, after space in front of it. -/
def expect (mark : Char) (text : List Char) : Option (List Char) :=
  Text.dropLead [mark] (skipSpace text)

/-- At most `limit` items separated by commas, up to a closing mark. -/
def readItems
    {α : Type}
    (item : List Char -> Option (α × List Char))
    (close : Char) : Nat -> List Char -> Option (List α × List Char)
  | 0, _ => none
  | limit + 1, text => do
      let (first, rest) ← item text
      match expect close rest with
      | some rest => some ([first], rest)
      | none =>
          let (items, rest) ← readItems item close limit (← expect ',' rest)
          some (first :: items, rest)

/-- The items between an opening mark that has been read and a closing one. -/
def readList
    {α : Type}
    (item : List Char -> Option (α × List Char))
    (close : Char)
    (text : List Char) : Option (List α × List Char) :=
  match expect close text with
  | some rest => some ([], rest)
  | none => readItems item close text.length text

/-- A name, a colon and a value. -/
def readMember
    (value : List Char -> Option (Value × List Char))
    (text : List Char) : Option ((String × Value) × List Char) := do
  let (name, rest) ← readString (← expect '"' text)
  let (member, rest) ← value (← expect ':' rest)
  some ((String.ofList name, member), rest)

/-- A value in which arrays and objects are nested at most `depth` deep. -/
def readValue : Nat -> List Char -> Option (Value × List Char)
  | 0, text => readScalar (skipSpace text)
  | depth + 1, text =>
      match skipSpace text with
      | '[' :: rest =>
          (readList (readValue depth) ']' rest).map fun (items, rest) =>
            (.array items, rest)
      | '\x7b' :: rest =>
          (readList (readMember (readValue depth)) '\x7d' rest).map
            fun (members, rest) => (.object members, rest)
      | scalar => readScalar scalar

/-- How deeply arrays and objects may be nested. -/
def deepest : Nat := 127

/-- The value of a JSON text, with nothing but space around it. -/
def parse (text : String) : Option Value :=
  match readValue deepest text.toList with
  | some (value, rest) => if (skipSpace rest).isEmpty then some value else none
  | none => none

end Json
end PackageFlags
