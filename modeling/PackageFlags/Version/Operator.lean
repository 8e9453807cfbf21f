import PackageFlags.Unrecognized

/-!
# Comparison operators and version schemas

An operator is the set of orderings it accepts. A schema says how the version
texts of a package compare.
-/

namespace PackageFlags
namespace Version

/-- The relation that two versions are tested for. -/
inductive Operator
  | less
  | lessOrEqual
  | equal
  | notEqual
  | greater
  | greaterOrEqual
  deriving DecidableEq, Repr

namespace Operator

/-- Whether two values in the given order satisfy the operator. -/
def accepts : Operator -> Ordering -> Bool
  | .less, order => order == .lt
  | .lessOrEqual, order => order != .gt
  | .equal, order => order == .eq
  | .notEqual, order => order != .eq
  | .greater, order => order == .gt
  | .greaterOrEqual, order => order != .lt

/-- The symbol of an operator. -/
def symbol : Operator -> String
  | .less => "<"
  | .lessOrEqual => "<="
  | .equal => "="
  | .notEqual => "!="
  | .greater => ">"
  | .greaterOrEqual => ">="

/-- The operator that a symbol stands for; equality has two symbols. -/
def ofSymbol? : String -> Option Operator
  | "<" => some .less
  | "<=" => some .lessOrEqual
  | "=" => some .equal
  | "==" => some .equal
  | "!=" => some .notEqual
  | ">" => some .greater
  | ">=" => some .greaterOrEqual
  | _ => none

/-- Read an operator, reporting an unknown word. -/
def parse (word : String) : Except Unrecognized Operator :=
  match ofSymbol? word with
  | some operator => .ok operator
  | none => .error (.operator word)

@[simp] theorem ofSymbol?_symbol (operator : Operator) :
    ofSymbol? operator.symbol = some operator := by
  cases operator <;> rfl

end Operator

/-- How the version texts of a package are compared. -/
inductive Schema
  /-- Dotted numbers with an optional suffix. -/
  | simple
  /-- Known to the package alone. -/
  | custom
  /-- The rules of RPM packages. -/
  | rpm
  /-- The rules of Debian packages. -/
  | dpkg
  deriving DecidableEq, Repr

namespace Schema

/-- The word for a schema in package descriptions. -/
def name : Schema -> String
  | .simple => "simple"
  | .custom => "custom"
  | .rpm => "rpm"
  | .dpkg => "dpkg"

/-- The schema that a word names. -/
def ofName? : String -> Option Schema
  | "simple" => some .simple
  | "custom" => some .custom
  | "rpm" => some .rpm
  | "dpkg" => some .dpkg
  | _ => none

/-- Read a schema, reporting an unknown word. -/
def parse (word : String) : Except Unrecognized Schema :=
  match ofName? word with
  | some schema => .ok schema
  | none => .error (.schema word)

@[simp] theorem ofName?_name (schema : Schema) :
    ofName? schema.name = some schema := by
  cases schema <;> rfl

end Schema
end Version
end PackageFlags
