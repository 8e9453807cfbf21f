import PackageFlags.Text.Pieces

/-!
# White space

The characters with the Unicode property `White_Space`, and the two operations
that depend on them: trimming both ends of a text and cutting it into words.
-/

namespace PackageFlags
namespace Text

/-- The ranges of code points with the property `White_Space`. -/
def blankRanges : List (Nat × Nat) :=
  [(0x09, 0x0D), (0x20, 0x20), (0x85, 0x85), (0xA0, 0xA0), (0x1680, 0x1680),
    (0x2000, 0x200A), (0x2028, 0x2029), (0x202F, 0x202F), (0x205F, 0x205F),
    (0x3000, 0x3000)]

/-- Whether a character is white space. -/
def isBlank (c : Char) : Bool :=
  blankRanges.any fun (first, last) => first ≤ c.toNat && c.toNat ≤ last

/-- A text without the blanks at either end. -/
def trimBlanks (text : List Char) : List Char :=
  ((text.dropWhile isBlank).reverse.dropWhile isBlank).reverse

/-- The maximal runs of characters that are not blank. -/
def blankSeparated (text : List Char) : List (List Char) :=
  (pieces isBlank text).filter fun piece => !piece.isEmpty

/-- A string without the blanks at either end. -/
def trim (text : String) : String :=
  String.ofList (trimBlanks text.toList)

/-- The words of a string: its maximal runs of characters that are not blank. -/
def words (text : String) : List String :=
  (blankSeparated text.toList).map String.ofList

end Text
end PackageFlags
