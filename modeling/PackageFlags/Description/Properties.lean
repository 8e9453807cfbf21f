import PackageFlags.Description.Flaw
import PackageFlags.NameMap
import PackageFlags.Text.Blank

/-!
# Variables and properties

A pkg-config description is a list of lines. After its comment and the blanks at
both ends are taken off, a line is empty, or it is a name, a sign and a value: `=`
defines a variable and `:` sets a property. A value may use the variables that
earlier lines define; it is expanded once, when its line is read.
-/

namespace PackageFlags
namespace Description

/-- What a line assigns its value to. -/
inductive Assignment
  | variable
  | property
  deriving DecidableEq, Repr

/-- A name, what it is and its value. -/
structure Line where
  /-- The name in front of the sign. -/
  name : String
  /-- What the sign says the name is. -/
  assignment : Assignment
  /-- The value as it is written. -/
  value : List Char
  deriving DecidableEq, Repr

namespace Line

/-- Whether a character may be part of a name. -/
def isNameChar (c : Char) : Bool :=
  c.isAlphanum || c = '_' || c = '.'

/-- What a sign says a name is. -/
def assignmentOf? : Char -> Option Assignment
  | '=' => some .variable
  | ':' => some .property
  | _ => none

/-- What is left of a line without its comment and the blanks at its ends. -/
def content (written : List Char) : List Char :=
  Text.trimBlanks (written.takeWhile (· ≠ '#'))

/-- Read the content of a line that is not empty. -/
def parse (content : List Char) : Option Line :=
  match content.takeWhile isNameChar with
  | [] => none
  | name =>
      match (content.dropWhile isNameChar).dropWhile Text.isBlank with
      | [] => none
      | sign :: value =>
          (assignmentOf? sign).map fun assignment =>
            { name := String.ofList name
              assignment
              value := Text.trimBlanks value }

end Line

/-- A part of a value. -/
inductive Part
  /-- A character that stands for itself. -/
  | character (c : Char)
  /-- The use of a variable. -/
  | variable (name : String)
  deriving DecidableEq, Repr

/-- The text up to a closing brace, and the number of characters that it takes
with the brace. -/
def untilBrace : List Char -> Option (List Char × Nat)
  | [] => none
  | c :: rest =>
      if c = '\x7d' then
        some ([], 1)
      else
        (untilBrace rest).map fun (name, size) => (c :: name, size + 1)

/-- The parts of a value after a number of characters that are passed over. A
dollar sign and a name in braces use a variable; a brace that is never closed
stands for itself. -/
def partsAfter : Nat -> List Char -> List Part
  | _, [] => []
  | passed + 1, _ :: rest => partsAfter passed rest
  | 0, c :: rest =>
      if c = '$' ∧ rest.head? = some '\x7b' then
        match untilBrace rest.tail with
        | some (name, size) =>
            .variable (String.ofList name) :: partsAfter (size + 1) rest
        | none => .character c :: partsAfter 0 rest
      else
        .character c :: partsAfter 0 rest

/-- The parts of a value. -/
def parts (value : List Char) : List Part :=
  partsAfter 0 value

/-- What the lines of a description say. -/
structure Properties where
  /-- The variables in the order of their lines. -/
  bindings : List (String × String) := []
  /-- The last value of each property. -/
  properties : NameMap String := NameMap.empty
  deriving DecidableEq

namespace Properties

/-- The last value of a variable. -/
def valueOf? (known : Properties) (name : String) : Option String :=
  known.bindings.reverse.lookup name

/-- The value of a property, empty if it is not set. -/
def property (known : Properties) (name : String) : String :=
  (known.properties.get? name).getD ""

/-- The text that a part stands for. -/
def expandPart (known : Properties) : Part -> Except Flaw (List Char)
  | .character c => .ok [c]
  | .variable name =>
      match known.valueOf? name with
      | some value => .ok value.toList
      | none => .error (.undefinedVariable name)

/-- A value with its variables replaced. The first one that is not defined is
reported. -/
def expand (known : Properties) (value : List Char) : Except Flaw String :=
  ((parts value).mapM known.expandPart).map fun texts =>
    String.ofList texts.flatten

/-- Add what a line assigns. -/
def assign (known : Properties) (line : Line) : Except Flaw Properties := do
  let value ← known.expand line.value
  match line.assignment with
  | .variable =>
      return { known with bindings := known.bindings ++ [(line.name, value)] }
  | .property =>
      return { known with
        properties := known.properties.insert line.name value }

/-- Add what a line with this number says. -/
def addLine
    (known : Properties)
    (number : Nat)
    (written : List Char) : Except Flaw Properties :=
  match Line.content written with
  | [] => .ok known
  | content =>
      match Line.parse content with
      | some line => known.assign line
      | none => .error (.malformedLine number)

/-- Add what the lines from this number on say. -/
def addLines
    (known : Properties)
    (number : Nat) : List (List Char) -> Except Flaw Properties
  | [] => .ok known
  | written :: rest => do
      (← known.addLine number written).addLines (number + 1) rest

/-- Read the lines of a description, counted from one. -/
def parse (text : String) : Except Flaw Properties :=
  ({} : Properties).addLines 1 (Text.pieces (· = '\n') text.toList)

end Properties
end Description
end PackageFlags
