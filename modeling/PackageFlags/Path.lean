import PackageFlags.Text.Pieces

/-!
# Lexical paths

A path is kept as it was written. Questions about it look at its steps: repeated
slashes, a slash at the end and `.` steps other than a first one say nothing, and
`..` is a step without a name. No operation consults a file system, and none
resolves `..`.
-/

namespace PackageFlags

/-- A path as it was written. -/
structure Path where
  /-- The text of the path. -/
  text : String
  deriving DecidableEq, Repr

namespace Path

/-- One step of a path. -/
inductive Step
  /-- Start at the root of the file tree. -/
  | root
  /-- Start at the working directory, written `.`. -/
  | here
  /-- Go to the enclosing directory. -/
  | up
  /-- Go to the entry with this name. -/
  | down (name : String)
  deriving DecidableEq, Repr

/-- The step that a segment between slashes takes, if any. -/
def Step.ofSegment? : String -> Option Step
  | "" => none
  | "." => none
  | ".." => some .up
  | name => some (.down name)

/-- The segments of a path between its slashes. -/
def segments (path : Path) : List String :=
  Text.splitOn '/' path.text

/-- Whether a path starts at the root. -/
def isAbsolute (path : Path) : Bool :=
  match path.segments with
  | "" :: _ :: _ => true
  | _ => false

/-- The steps of a path in order. -/
def steps (path : Path) : List Step :=
  match path.segments with
  | "" :: next :: rest =>
      .root :: (next :: rest).filterMap Step.ofSegment?
  | "." :: rest => .here :: rest.filterMap Step.ofSegment?
  | relative => relative.filterMap Step.ofSegment?

/-- Segments without those at the end that take no step. -/
def dropIdleEnd (segments : List String) : List String :=
  (segments.reverse.dropWhile
    fun segment => (Step.ofSegment? segment).isNone).reverse

/-- Segments without the last one that takes a step, and what follows it. -/
def dropLastStep (segments : List String) : Option (List String) :=
  match dropIdleEnd segments with
  | [] => none
  | segment :: rest => some (dropIdleEnd (segment :: rest).dropLast)

/-- The path without its last step; the root and the empty path have no
parent. What precedes the last step stays as it was written. -/
def parent? (path : Path) : Option Path :=
  match path.segments with
  | [] => none
  | "" :: next :: rest =>
      (dropLastStep (next :: rest)).map fun kept =>
        ⟨"/" ++ Text.joinWith "/" kept⟩
  | first :: rest =>
      match dropLastStep rest with
      | some kept => some ⟨Text.joinWith "/" (first :: kept)⟩
      | none => if first = "" then none else some ⟨""⟩

/-- The directory that a path lies in, the empty path if it has no parent. -/
def directory (path : Path) : Path :=
  path.parent?.getD ⟨""⟩

/-- The name that the last step goes down to. -/
def fileName? (path : Path) : Option String :=
  match path.steps.getLast? with
  | some (.down name) => some name
  | _ => none

/-- The parts of a file name before and after its last dot. A name whose only
dot is its first character has no second part. -/
def splitExtension (name : String) : String × Option String :=
  match Text.cutFirst '.' name.toList.reverse with
  | some (_, []) => (name, none)
  | some (after, before) =>
      (String.ofList before.reverse, some (String.ofList after.reverse))
  | none => (name, none)

/-- The file name without its extension. -/
def fileStem? (path : Path) : Option String :=
  path.fileName?.map fun name => (splitExtension name).1

/-- The extension of the file name. -/
def extension? (path : Path) : Option String :=
  path.fileName?.bind fun name => (splitExtension name).2

/-- One path taken from the end of another. A path from the root stands for
itself; otherwise a slash is put between the two where none is. -/
def join (base path : Path) : Path :=
  if path.isAbsolute then
    path
  else if base.text = "" ∨ base.segments.getLast? = some "" then
    ⟨base.text ++ path.text⟩
  else
    ⟨base.text ++ "/" ++ path.text⟩

end Path
end PackageFlags
