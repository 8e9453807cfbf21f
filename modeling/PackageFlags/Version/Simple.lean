import PackageFlags.Text.Pieces

/-!
# Simple versions

A simple version is a dotted list of numbers, the core, optionally followed by
one `+` or `-` and a second dotted list, the suffix. Each number is written in
decimal digits and fits 64 bits. Cores are compared number by number, a shorter
one continued with zeros; equal cores are decided by the suffixes, where having
one is more than having none.
-/

namespace PackageFlags
namespace Version

/-- What is wrong with the text of a simple version. -/
inductive Flaw
  /-- Both kinds of separator occur. -/
  | bothSeparators
  /-- A separator occurs twice. -/
  | secondSeparator
  /-- A segment is empty or has a character that is no digit. -/
  | notANumber (segment : String)
  /-- A segment does not fit 64 bits. -/
  | tooLarge (segment : String)
  /-- A reason given in words. -/
  | stated (reason : String)
  deriving DecidableEq, Repr

namespace Flaw

/-- The report of a flaw in a version. -/
def message : Flaw -> String
  | .bothSeparators => "a version may contain either '+' or '-', not both"
  | .secondSeparator => "only one '+' or '-' separator is allowed"
  | .notANumber segment => "'" ++ segment ++ "' is not a valid number"
  | .tooLarge segment =>
      "'" ++ segment ++
        "' is too large to be represented by a 64-bit integer"
  | .stated reason => reason

end Flaw

/-- A simple version: its core, and its suffix if it has one. -/
structure Simple where
  /-- The numbers before the separator. -/
  core : List Nat
  /-- The numbers after the separator. -/
  suffix : Option (List Nat)
  deriving DecidableEq, Repr

namespace Simple

/-- The largest number a segment may have. -/
def largest : Nat := Nat.pow 2 64 - 1

/-- The digits of a segment added to the value read so far. The first character
that is no digit, or that takes the value beyond `largest`, decides the flaw. -/
def addDigits
    (segment : List Char)
    (value : Nat) : List Char -> Except Flaw Nat
  | [] => .ok value
  | c :: rest =>
      if c.isDigit then
        let next := value * 10 + (c.toNat - '0'.toNat)
        if next ≤ largest then
          addDigits segment next rest
        else
          .error (.tooLarge (String.ofList segment))
      else
        .error (.notANumber (String.ofList segment))

/-- The number that a segment writes. -/
def parseNumber (segment : List Char) : Except Flaw Nat :=
  if segment.isEmpty then
    .error (.notANumber (String.ofList segment))
  else
    addDigits segment 0 segment

/-- The numbers of a dotted list. -/
def parseNumbers (text : List Char) : Except Flaw (List Nat) :=
  (Text.pieces (· = '.') text).mapM parseNumber

/-- Whether a character separates a core from a suffix. -/
def isSeparator (c : Char) : Bool := c = '+' || c = '-'

/-- Read a simple version. Separators are judged first, then the core, then the
suffix. -/
def parseChars (text : List Char) : Except Flaw Simple :=
  if '+' ∈ text ∧ '-' ∈ text then
    .error .bothSeparators
  else
    match Text.pieces isSeparator text with
    | [core] => do
        return ⟨← parseNumbers core, none⟩
    | [core, suffix] => do
        return ⟨← parseNumbers core, some (← parseNumbers suffix)⟩
    | _ => .error .secondSeparator

/-- Read a simple version from a string. -/
def parse (text : String) : Except Flaw Simple :=
  parseChars text.toList

/-- Compare a list of zeros with a list of numbers. -/
def compareZeros : List Nat -> Ordering
  | [] => .eq
  | right :: rights => (compare 0 right).then (compareZeros rights)

/-- Compare two lists of numbers, the shorter one continued with zeros. -/
def compareNumbers : List Nat -> List Nat -> Ordering
  | [], rights => compareZeros rights
  | left :: lefts, [] =>
      (compare left 0).then (compareNumbers lefts [])
  | left :: lefts, right :: rights =>
      (compare left right).then (compareNumbers lefts rights)

/-- Compare two suffixes; having one is more than having none. -/
def compareSuffixes : Option (List Nat) -> Option (List Nat) -> Ordering
  | none, none => .eq
  | none, some _ => .lt
  | some _, none => .gt
  | some left, some right => compareNumbers left right

/-- The order of simple versions. -/
def order (left right : Simple) : Ordering :=
  (compareNumbers left.core right.core).then
    (compareSuffixes left.suffix right.suffix)

end Simple
end Version
end PackageFlags
