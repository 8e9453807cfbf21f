import PackageFlags.Unrecognized

/-!
# Languages and settings per language

Compiler flags, include directories and definitions are kept per language. A
language without an entry is different from a language whose list is empty: only
the second is written out.
-/

namespace PackageFlags

/-- The languages that settings can be given for. -/
inductive Language
  | c
  | cxx
  | fortran
  deriving DecidableEq, Repr

namespace Language

/-- Every language, in the order in which they are written out. -/
def all : List Language := [.c, .cxx, .fortran]

/-- The key of a language in package descriptions. -/
def name : Language -> String
  | .c => "c"
  | .cxx => "c++"
  | .fortran => "fortran"

/-- The language that a word names; C++ has three spellings. -/
def ofName? : String -> Option Language
  | "c" => some .c
  | "c++" => some .cxx
  | "cxx" => some .cxx
  | "cpp" => some .cxx
  | "fortran" => some .fortran
  | _ => none

/-- Read a language, reporting an unknown word. -/
def parse (word : String) : Except Unrecognized Language :=
  match ofName? word with
  | some language => .ok language
  | none => .error (.language word)

@[simp] theorem ofName?_name (language : Language) :
    ofName? language.name = some language := by
  cases language <;> rfl

end Language

/-- One list per language, where a language may have no list at all. -/
structure PerLanguage (α : Type) where
  /-- The list for C. -/
  c : Option (List α) := none
  /-- The list for C++. -/
  cxx : Option (List α) := none
  /-- The list for Fortran. -/
  fortran : Option (List α) := none
  deriving DecidableEq, Repr

namespace PerLanguage

variable {α β : Type}

/-- The list of a language. -/
def get? (settings : PerLanguage α) : Language -> Option (List α)
  | .c => settings.c
  | .cxx => settings.cxx
  | .fortran => settings.fortran

/-- The settings with one list for each language. -/
def ofFunction (list : Language -> Option (List α)) : PerLanguage α where
  c := list .c
  cxx := list .cxx
  fortran := list .fortran

@[simp] theorem get?_ofFunction
    (list : Language -> Option (List α))
    (language : Language) :
    (ofFunction list).get? language = list language := by
  cases language <;> rfl

@[ext] theorem ext
    {left right : PerLanguage α}
    (same : forall language, left.get? language = right.get? language) :
    left = right := by
  cases left
  cases right
  congr
  · exact same .c
  · exact same .cxx
  · exact same .fortran

/-- No language has a list. -/
def empty : PerLanguage α := {}

/-- The same list for every language. -/
def constant (list : List α) : PerLanguage α :=
  ofFunction fun _ => some list

/-- The same list for every language, unless it is empty. -/
def constantUnlessEmpty (list : List α) : PerLanguage α :=
  if list.isEmpty then empty else constant list

/-- The elements for a language, none if it has no list. -/
def elements (settings : PerLanguage α) (language : Language) : List α :=
  (settings.get? language).getD []

/-- Apply a function to every element. -/
def map (f : α -> β) (settings : PerLanguage α) : PerLanguage β :=
  ofFunction fun language => (settings.get? language).map (List.map f)

/-- One list after another; a language has a list as soon as one side has. -/
def appendLists :
    Option (List α) -> Option (List α) -> Option (List α)
  | none, none => none
  | left, right => some (left.getD [] ++ right.getD [])

/-- The lists of the second settings after those of the first. -/
def append (left right : PerLanguage α) : PerLanguage α :=
  ofFunction fun language =>
    appendLists (left.get? language) (right.get? language)

@[simp] theorem elements_append
    (left right : PerLanguage α)
    (language : Language) :
    (left.append right).elements language =
      left.elements language ++ right.elements language := by
  unfold elements append
  rw [get?_ofFunction]
  cases left.get? language <;> cases right.get? language <;>
    simp [appendLists]

@[simp] theorem elements_map
    (f : α -> β)
    (settings : PerLanguage α)
    (language : Language) :
    (settings.map f).elements language =
      (settings.elements language).map f := by
  unfold elements map
  rw [get?_ofFunction]
  cases settings.get? language <;> rfl

@[simp] theorem elements_constantUnlessEmpty
    (list : List α)
    (language : Language) :
    (constantUnlessEmpty list).elements language = list := by
  unfold constantUnlessEmpty elements
  cases list with
  | nil => cases language <;> rfl
  | cons first rest => simp [constant]

@[simp] theorem append_empty
    (settings : PerLanguage α) :
    settings.append {} = settings := by
  ext1 language
  rw [append, get?_ofFunction]
  have isMissing : ({} : PerLanguage α).get? language = none := by
    cases language <;> rfl
  rw [isMissing]
  cases settings.get? language <;> simp [appendLists]

/-- The languages that have a list, with their lists, in order. -/
def toList (settings : PerLanguage α) : List (Language × List α) :=
  Language.all.filterMap fun language =>
    (settings.get? language).map fun list => (language, list)

end PerLanguage
end PackageFlags
