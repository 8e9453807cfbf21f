import PackageFlags.Flags.Basic

/-!
# Flags on one line

The output that build tools take: the flags of the categories asked for, with
blanks between them. A library with a usual name is linked by name; whatever
else there is to link is named by its path.
-/

namespace PackageFlags

/-- What to print of the flags. -/
structure PrintOptions where
  /-- Compiler flags that are no include directories and no definitions. -/
  compileFlags : Bool := false
  /-- Include directories. -/
  includes : Bool := false
  /-- Definitions. -/
  definitions : Bool := false
  /-- Directories to search for libraries. -/
  searchDirectories : Bool := false
  /-- Libraries and artifacts to link. -/
  links : Bool := false
  /-- Other flags for the linker. -/
  otherLinkFlags : Bool := false
  /-- The version, in place of everything else. -/
  versionOnly : Bool := false
  /-- The language whose settings are printed. -/
  language : Language := .c
  deriving DecidableEq, Repr

namespace Definition

/-- The compiler flag for a definition. -/
def flag (definition : Definition) : String :=
  if definition.undefine then
    "-U" ++ definition.name
  else
    match definition.value with
    | some value => "-D" ++ definition.name ++ "=" ++ value
    | none => "-D" ++ definition.name

end Definition

namespace Flags

/-- The name that a library with this file name is linked by: what stands
between `lib` and the first dot. -/
def linkName? (fileName : String) : Option String := do
  let (stem, _) ← Text.splitOnce '.' (← Text.dropStart "lib" fileName)
  if stem = "" then none else some stem

/-- The flag that links an artifact. -/
def linkFlag (location : String) : String :=
  match (Path.mk location).fileName?.bind linkName? with
  | some name => "-l" ++ name
  | none => location

/-- The directory to search for an artifact, if it is in one. -/
def searchDirectory? (location : String) : Option String :=
  match (Path.mk location).parent? with
  | some directory => if directory.text = "" then none else some directory.text
  | none => none

/-- Whether a flag for the linker names a directory to search. -/
def isSearchFlag (flag : String) : Bool :=
  (Text.dropStart "-L" flag).isSome

/-- The flags for the directories of artifacts, each one once. -/
def artifactSearchFlags (flags : Flags) : List String :=
  ((flags.linkLocations.filterMap searchDirectory?).map
    fun directory => "-L" ++ directory).eraseDups

/-- The flags for the directories to search. -/
def searchFlags (flags : Flags) : List String :=
  flags.artifactSearchFlags ++ flags.linkFlags.filter isSearchFlag

/-- The flags for what is linked. -/
def linkEntries (flags : Flags) : List String :=
  flags.linkLocations.map linkFlag
    ++ flags.linkLibraries.map fun library => "-l" ++ library

/-- The flags of the categories that are printed, in order. -/
def printed (flags : Flags) (options : PrintOptions) : List String :=
  (if options.compileFlags then
      flags.compileFlags.elements options.language else [])
    ++ (if options.includes then
      (flags.includes.elements options.language).map
        fun directory => "-I" ++ directory else [])
    ++ (if options.definitions then
      (flags.definitions.elements options.language).map Definition.flag
      else [])
    ++ (if options.searchDirectories then flags.searchFlags else [])
    ++ (if options.links then flags.linkEntries else [])
    ++ (if options.otherLinkFlags then
      flags.linkFlags.filter fun flag => !isSearchFlag flag else [])

/-- The flags on one line, or the version. -/
def line (flags : Flags) (options : PrintOptions) : String :=
  if options.versionOnly then
    flags.version
  else
    Text.joinWith " " (flags.printed options)

end Flags
end PackageFlags
