import PackageFlags.Path

/-!
# File trees

A file tree lists what stands at each location, a location being the names on
the way down from the root. Paths are followed one segment at a time: every
segment needs a directory to stand in, `..` leaves it for the directory around it,
and the empty path leads nowhere.
-/

namespace PackageFlags

/-- The names on the way down from the root. -/
abbrev Location := List String

/-- What stands at a location. -/
inductive Entry
  | directory
  | file (bytes : ByteArray)
  /-- A file that cannot be read, and why. -/
  | sealed (reason : String)

/-- Why a file could not be read. -/
inductive ReadFailure
  /-- Nothing stands at the path. -/
  | notFound
  /-- A directory stands at the path. -/
  | isDirectory
  /-- The path goes through something that is no directory. -/
  | notDirectory
  /-- The bytes of the file are not UTF-8. -/
  | notText
  /-- A reason given in words. -/
  | stated (reason : String)
  deriving DecidableEq, Repr

namespace ReadFailure

/-- The report of a failed read. -/
def message : ReadFailure -> String
  | .notFound => "No such file or directory (os error 2)"
  | .isDirectory => "Is a directory (os error 21)"
  | .notDirectory => "Not a directory (os error 20)"
  | .notText => "stream did not contain valid UTF-8"
  | .stated reason => reason

end ReadFailure

/-- A finite file tree with a working directory. -/
structure FileSystem where
  /-- What stands where; the first entry for a location counts. -/
  entries : List (Location × Entry) := []
  /-- Where paths that are not absolute start. -/
  workingDirectory : Location := []

namespace FileSystem

/-- What stands at a location; the root is always a directory. -/
def entryAt (files : FileSystem) (location : Location) : Option Entry :=
  if location = [] then some .directory else files.entries.lookup location

/-- Whether a directory stands at a location. -/
def isDirectoryAt (files : FileSystem) (location : Location) : Bool :=
  match files.entryAt location with
  | some .directory => true
  | _ => false

/-- Follow the segments of a path from a location. -/
def walk
    (files : FileSystem)
    (location : Location) : List String -> Except ReadFailure Location
  | [] => .ok location
  | segment :: rest =>
      if files.isDirectoryAt location then
        match Path.Step.ofSegment? segment with
        | some (.down name) =>
            match files.entryAt (location ++ [name]) with
            | some _ => files.walk (location ++ [name]) rest
            | none => .error .notFound
        | some .up =>
            if files.isDirectoryAt location.dropLast then
              files.walk location.dropLast rest
            else
              .error .notDirectory
        | _ => files.walk location rest
      else
        .error .notDirectory

/-- The location that a path leads to. -/
def locate (files : FileSystem) (path : Path) : Except ReadFailure Location :=
  match path.segments with
  | "" :: next :: rest => files.walk [] (next :: rest)
  | [""] => .error .notFound
  | relative => files.walk files.workingDirectory relative

/-- What stands at the end of a path. -/
def entryOf (files : FileSystem) (path : Path) : Except ReadFailure Entry := do
  match files.entryAt (← files.locate path) with
  | some entry => .ok entry
  | none => .error .notFound

/-- Whether a path leads to a file. -/
def isFile (files : FileSystem) (path : Path) : Bool :=
  match files.entryOf path with
  | .ok .directory => false
  | .ok _ => true
  | .error _ => false

/-- Whether a path leads to a directory. -/
def isDirectory (files : FileSystem) (path : Path) : Bool :=
  match files.entryOf path with
  | .ok .directory => true
  | _ => false

/-- The text of the file that a path leads to. -/
def read (files : FileSystem) (path : Path) : Except ReadFailure String := do
  match ← files.entryOf path with
  | .directory => .error .isDirectory
  | .file bytes =>
      match String.fromUTF8? bytes with
      | some text => .ok text
      | none => .error .notText
  | .sealed reason => .error (.stated reason)

/-- The texts of all files that hold text. -/
def texts (files : FileSystem) : List String :=
  files.entries.filterMap fun (_, entry) =>
    match entry with
    | .file bytes => String.fromUTF8? bytes
    | _ => none

/-- Put an entry at a location in place of what stands there. -/
def put
    (files : FileSystem)
    (location : Location)
    (entry : Entry) : FileSystem :=
  { files with
    entries := (location, entry) ::
      files.entries.filter fun (other, _) => other ≠ location }

/-- Follow segments from a location and create the directories that are
missing on the way. -/
def createAlong
    (files : FileSystem)
    (location : Location) : List String -> FileSystem × Location
  | [] => (files, location)
  | segment :: rest =>
      match Path.Step.ofSegment? segment with
      | some (.down name) =>
          let child := location ++ [name]
          match files.entryAt child with
          | some _ => files.createAlong child rest
          | none => (files.put child .directory).createAlong child rest
      | some .up => files.createAlong location.dropLast rest
      | _ => files.createAlong location rest

/-- Create what is missing of the directories that a path goes through. -/
def createDirectories
    (files : FileSystem)
    (path : Path) : FileSystem × Location :=
  if path.isAbsolute then
    files.createAlong [] path.segments
  else
    files.createAlong files.workingDirectory path.segments

/-- Write a file, creating the directories that it lies in. -/
def write
    (files : FileSystem)
    (path : Path)
    (bytes : ByteArray) : FileSystem :=
  let (prepared, directory) := files.createDirectories path.directory
  match path.fileName? with
  | some name => prepared.put (directory ++ [name]) (.file bytes)
  | none => prepared

/-- Remove what a path leads to, with everything below it. -/
def remove (files : FileSystem) (path : Path) : FileSystem :=
  match files.locate path with
  | .error _ => files
  | .ok location =>
      { files with
        entries := files.entries.filter fun (other, _) =>
          !location.isPrefixOf other }

/-- The tree that holds nothing but the way to its working directory. -/
def emptyAt (workingDirectory : Location) : FileSystem :=
  let bare : FileSystem := { workingDirectory := workingDirectory }
  (bare.createAlong [] workingDirectory).1

end FileSystem
end PackageFlags
