import PackageFlags.Description.Flaw
import PackageFlags.Text.Blank

/-!
# Lists of required packages

A list of required packages is read as words and operators; commas and blanks
only separate them. Each entry is a word, the name of a package, which may be
followed by an operator and another word, the version it is compared with.
-/

namespace PackageFlags
namespace Description

/-- A token of a list of required packages. -/
inductive RequiresToken
  /-- A name or a version. -/
  | word (text : String)
  /-- A sign that may be an operator. -/
  | sign (text : String)
  deriving DecidableEq, Repr

namespace RequiresToken

/-- Whether an operator can start with a character. -/
def startsSign (c : Char) : Bool :=
  c = '<' || c = '>' || c = '=' || c = '!'

/-- Whether a character can be part of a word. -/
def isWordChar (c : Char) : Bool :=
  !(Text.isBlank c || c = ',' || startsSign c)

/-- Put a character in front of the word that a list of tokens starts with. -/
def extendWord (c : Char) : List RequiresToken -> List RequiresToken
  | .word text :: rest => .word (String.ofList (c :: text.toList)) :: rest
  | tokens => .word (String.ofList [c]) :: tokens

/-- The tokens of a text. A sign takes an equals sign after it along, and a word
takes every character that can be part of one. -/
def scan : List Char -> List RequiresToken
  | [] => []
  | [c] =>
      if startsSign c then [.sign (String.ofList [c])]
      else if isWordChar c then [.word (String.ofList [c])]
      else []
  | c :: next :: rest =>
      if startsSign c then
        if next = '=' then
          .sign (String.ofList [c, next]) :: scan rest
        else
          .sign (String.ofList [c]) :: scan (next :: rest)
      else if isWordChar c then
        if isWordChar next then
          extendWord c (scan (next :: rest))
        else
          .word (String.ofList [c]) :: scan (next :: rest)
      else
        scan (next :: rest)

end RequiresToken

/-- An entry of a list of required packages. -/
structure RequiredPackage where
  /-- The name of the package. -/
  name : String
  /-- The operator and the version it is constrained by. -/
  constraint : Option (Version.Operator × String) := none
  deriving DecidableEq, Repr

namespace RequiredPackage

/-- The entries that tokens make up. -/
def ofTokens :
    List RequiresToken -> Except Flaw (List RequiredPackage)
  | [] => .ok []
  | .sign text :: _ => .error (.operatorWithoutPackage text)
  | .word name :: .sign text :: rest =>
      match Version.Operator.ofSymbol? text with
      | none => .error (.unknownOperator name text)
      | some operator =>
          match rest with
          | .word version :: rest => do
              let entries ← ofTokens rest
              return { name, constraint := some (operator, version) } :: entries
          | _ => .error (.operatorWithoutVersion name operator)
  | .word name :: rest => do
      return { name := name } :: (← ofTokens rest)

/-- Read a list of required packages. -/
def parseList (text : String) : Except Flaw (List RequiredPackage) :=
  ofTokens (RequiresToken.scan text.toList)

end RequiredPackage
end Description
end PackageFlags
