/-!
# Words outside a fixed vocabulary

Operators, version schemas and languages are each written with one of a few
words. A word outside the vocabulary is reported by what it was meant to be.
-/

namespace PackageFlags

/-- A word that is not in the vocabulary it was read with. -/
inductive Unrecognized
  | operator (word : String)
  | schema (word : String)
  | language (word : String)
  deriving DecidableEq, Repr

namespace Unrecognized

/-- The report of an unknown word. -/
def message : Unrecognized -> String
  | .operator word => "unknown version operator `" ++ word ++ "`"
  | .schema word => "unknown version schema `" ++ word ++ "`"
  | .language word => "unknown language `" ++ word ++ "`"

end Unrecognized
end PackageFlags
