import PackageFlags.Flags.Line
import PackageFlags.Proofs.Paths

/-!
# Linking by name

The directory of a library that is linked is searched, and the library is linked by a
name. A linker takes this name for all that stands between `lib` and the extension of a
file name, while the name that is printed ends at the first dot. So a library is found
under the name that is printed exactly if there is no dot in its own.
-/

namespace PackageFlags
namespace Flags

/-! ## Names of libraries -/

/-- The extensions of the files that a linker looks for. -/
def libraryExtensions : List String :=
  ["a", "so", "dylib"]

/-- The file name of a library. -/
def libraryFile (name extension : String) : String :=
  "lib" ++ name ++ "." ++ extension

/-- A linker that looks for a library of this name in a directory comes to a file. -/
def Finds (directory : Path) (name : String) (file : Path) : Prop :=
  '/' ∉ name.toList ∧ ∃ extension ∈ libraryExtensions,
    (directory.join ⟨libraryFile name extension⟩).steps = file.steps

variable {name other first rest extension directory location : String}

theorem isName_libraryFile
    (noSlash : '/' ∉ name.toList)
    (isExtension : extension ∈ libraryExtensions) :
    Path.IsName (libraryFile name extension) := by
  have noneInside : ∀ extension ∈ libraryExtensions, '/' ∉ extension.toList := by decide
  apply Path.IsName.of_length
  · simp [libraryFile, noSlash, noneInside extension isExtension]
  · have startsLong : "lib".length = 3 := rfl
    simp only [libraryFile, String.length_append]
    omega

/-- A file is that of one name. -/
theorem eq_of_libraryFile_eq
    {otherExtension : String}
    (isExtension : extension ∈ libraryExtensions)
    (isOther : otherExtension ∈ libraryExtensions)
    (same : libraryFile name extension = libraryFile other otherExtension) :
    name = other := by
  -- from the end on, the first dot is the one in front of the extension
  have noneInside : ∀ extension ∈ libraryExtensions, '.' ∉ extension.toList.reverse := by
    decide
  have isCut : ∀ name, ∀ extension ∈ libraryExtensions,
      Text.cutFirst '.' (libraryFile name extension).toList.reverse =
        some (extension.toList.reverse, ("lib" ++ name).toList.reverse) := by
    intro name extension isExtension
    rw [← Text.cutFirst_append_cons (noneInside extension isExtension)]
    simp [libraryFile]
  have sameCut := (isCut name extension isExtension).symm.trans
    (same ▸ isCut other otherExtension isOther)
  apply String.toList_injective
  simpa using congrArg (Option.map Prod.snd) sameCut

/-- The name that is printed ends at the first dot. -/
theorem linkName?_eq (notDotted : '.' ∉ first.toList) (rest : String) :
    linkName? ("lib" ++ first ++ "." ++ rest) =
      if first = "" then none else some first := by
  have isStem : Text.dropStart "lib" ("lib" ++ first ++ "." ++ rest) =
      some (first ++ "." ++ rest) := by
    rw [Text.dropStart_eq_some_iff, String.append_assoc, String.append_assoc,
      String.append_assoc]
  have isSplit : Text.splitOnce '.' (first ++ "." ++ rest) = some (first, rest) :=
    Text.splitOnce_append notDotted rest
  simp only [linkName?, isStem, isSplit, Option.bind_eq_bind, Option.bind_some]

theorem linkFlag_eq
    (isFile : (Path.mk location).fileName? = some ("lib" ++ first ++ "." ++ rest))
    (notDotted : '.' ∉ first.toList) :
    linkFlag location = if first = "" then location else "-l" ++ first := by
  rw [linkFlag, isFile, Option.bind_some, linkName?_eq notDotted]
  by_cases isEmpty : first = "" <;> simp [isEmpty]

/-! ## Libraries in directories -/

section Library

variable
    (notEmpty : directory ≠ "")
    (isSome : name ≠ "")
    (noSlash : '/' ∉ name.toList)
    (isExtension : extension ∈ libraryExtensions)

include notEmpty noSlash isExtension

theorem steps_library :
    (Path.mk (directory ++ "/" ++ libraryFile name extension)).steps =
      (Path.mk directory).steps ++ [.down (libraryFile name extension)] :=
  Path.steps_append_name notEmpty (isName_libraryFile noSlash isExtension)

theorem fileName?_library :
    (Path.mk (directory ++ "/" ++ libraryFile name extension)).fileName? =
      some (libraryFile name extension) := by
  apply Path.fileName?_eq_some
  rw [steps_library notEmpty noSlash isExtension, List.getLast?_append]
  rfl

/-- The directory of a library is searched. -/
theorem exists_searchDirectory? :
    ∃ searched : Path, searched.steps = (Path.mk directory).steps
      ∧ searchDirectory? (directory ++ "/" ++ libraryFile name extension) =
          some searched.text := by
  obtain ⟨searched, isParent, areSteps⟩ :=
    Path.exists_parent? (steps_library notEmpty noSlash isExtension)
  have notIdle : searched.text ≠ "" := by
    rw [Ne, ← Path.steps_eq_nil_iff, areSteps, Path.steps_eq_nil_iff]
    exact notEmpty
  refine ⟨searched, areSteps, ?_⟩
  rw [searchDirectory?, isParent]
  exact if_neg notIdle

/-- A linker finds a library in its directory under the name of the library, and under
no other name. -/
theorem finds_library_iff {searched : Path} :
    Finds searched other ⟨directory ++ "/" ++ libraryFile name extension⟩ ↔
      other = name ∧ searched.steps = (Path.mk directory).steps := by
  unfold Finds
  rw [steps_library notEmpty noSlash isExtension]
  constructor
  · rintro ⟨otherNoSlash, otherExtension, isOther, isSame⟩
    rw [Path.steps_join_name (isName_libraryFile otherNoSlash isOther)] at isSame
    obtain ⟨sameSteps, sameFile⟩ := List.append_inj' isSame rfl
    have isFile := Path.Step.down.inj (List.singleton_inj.mp sameFile)
    exact ⟨eq_of_libraryFile_eq isOther isExtension isFile, sameSteps⟩
  · rintro ⟨rfl, sameSteps⟩
    refine ⟨noSlash, extension, isExtension, ?_⟩
    rw [Path.steps_join_name (isName_libraryFile noSlash isExtension), sameSteps]

theorem linkFlag_of_dotted
    (isDotted : name = first ++ "." ++ rest)
    (notDotted : '.' ∉ first.toList) :
    linkFlag (directory ++ "/" ++ libraryFile name extension) =
      if first = "" then directory ++ "/" ++ libraryFile name extension
      else "-l" ++ first := by
  have isFile := fileName?_library notEmpty noSlash isExtension
  have isCut : libraryFile name extension =
      "lib" ++ first ++ "." ++ (rest ++ "." ++ extension) := by
    simp only [libraryFile, isDotted, String.append_assoc]
  exact linkFlag_eq (isFile.trans (congrArg some isCut)) notDotted

include isSome

/-- A library is linked by its name exactly if there is no dot in it. -/
theorem linkFlag_eq_iff :
    linkFlag (directory ++ "/" ++ libraryFile name extension) = "-l" ++ name ↔
      '.' ∉ name.toList := by
  constructor
  · intro isLinked isInside
    obtain ⟨before, after, isSplit, notDotted⟩ := List.eq_append_cons_of_mem isInside
    have isDotted : name = String.ofList before ++ "." ++ String.ofList after := by
      apply String.toList_injective
      simp [isSplit]
    rw [linkFlag_of_dotted notEmpty noSlash isExtension isDotted (by simpa using notDotted)]
      at isLinked
    split at isLinked
    · have hasSlash : '/' ∈ ("-l" ++ name).toList := by
        rw [← isLinked]
        simp
      simp [noSlash] at hasSlash
    · have isFirst : String.ofList before = name := by simpa using isLinked
      rw [← isFirst, String.toList_ofList] at isInside
      exact notDotted isInside
  · intro notDotted
    rw [linkFlag_eq (fileName?_library notEmpty noSlash isExtension) notDotted,
      if_neg isSome]

end Library

/-- The directory of a library is printed as one to search, and what is printed to link
the library goes by its name exactly if there is no dot in it. Only then the name that is
printed is one that a linker finds the library under. With a dot in the name it ends there,
or the whole location is printed if nothing stands in front of the dot. -/
theorem line_finds_iff_undotted
    {flags : Flags}
    {options : PrintOptions}
    (notVersion : options.versionOnly = false)
    (areSearched : options.searchDirectories = true)
    (areLinked : options.links = true)
    (notEmpty : directory ≠ "")
    (isSome : name ≠ "")
    (noSlash : '/' ∉ name.toList)
    (isExtension : extension ∈ libraryExtensions)
    (isLocation : location = directory ++ "/" ++ libraryFile name extension)
    (isLinked : location ∈ flags.linkLocations) :
    flags.line options = Text.joinWith " " (flags.printed options)
      ∧ linkFlag location ∈ flags.printed options
      ∧ (∃ searched : Path, "-L" ++ searched.text ∈ flags.printed options
          ∧ searched.steps = (Path.mk directory).steps
          ∧ Finds searched name ⟨location⟩
          ∧ ((∃ other, linkFlag location = "-l" ++ other ∧ Finds searched other ⟨location⟩)
              ↔ '.' ∉ name.toList))
      ∧ (linkFlag location = "-l" ++ name ↔ '.' ∉ name.toList)
      ∧ ∀ first rest, name = first ++ "." ++ rest → '.' ∉ first.toList →
          linkFlag location = if first = "" then location else "-l" ++ first := by
  subst isLocation
  have isNamed := linkFlag_eq_iff notEmpty isSome noSlash isExtension
  obtain ⟨searched, areSteps, isSearched⟩ :=
    exists_searchDirectory? notEmpty noSlash isExtension
  have isFound : ∀ other, Finds searched other
      ⟨directory ++ "/" ++ libraryFile name extension⟩ ↔ other = name := by
    intro other
    rw [finds_library_iff notEmpty noSlash isExtension, and_iff_left areSteps]
  refine ⟨?_, ?_, ⟨searched, ?_, areSteps, (isFound name).mpr rfl, ?_⟩, isNamed, ?_⟩
  · simp [line, notVersion]
  · have isEntry : linkFlag (directory ++ "/" ++ libraryFile name extension) ∈
        flags.linkEntries :=
      List.mem_append_left _ (List.mem_map_of_mem isLinked)
    simp [printed, areLinked, isEntry]
  · have isFlag : "-L" ++ searched.text ∈ flags.searchFlags := by
      refine List.mem_append_left _ (List.mem_eraseDups.mpr (List.mem_map_of_mem ?_))
      exact List.mem_filterMap.mpr ⟨_, isLinked, isSearched⟩
    simp [printed, areSearched, isFlag]
  · simp only [isFound, exists_eq_right, isNamed]
  · intro first rest isDotted notDotted
    exact linkFlag_of_dotted notEmpty noSlash isExtension isDotted notDotted

/-- The libraries of a package. -/
def libraries : Flags where
  linkLocations := ["/usr/lib/libfmt.so", "/usr/lib/libglib-2.0.so"]

/-- Directories to search and what to link are printed. -/
def linking : PrintOptions where
  searchDirectories := true
  links := true

/-- A linker finds a library whose name has no dot. -/
theorem line_finds_iff_undotted_fmt :
    linkFlag "/usr/lib/libfmt.so" = "-lfmt" ∧ "-lfmt" ∈ libraries.printed linking
      ∧ ∃ searched : Path, "-L" ++ searched.text ∈ libraries.printed linking
        ∧ Finds searched "fmt" ⟨"/usr/lib/libfmt.so"⟩ := by
  obtain ⟨-, isPrinted, ⟨searched, isSearched, -, isFound, -⟩, isNamed, -⟩ :=
    @line_finds_iff_undotted "fmt" "so" "/usr/lib" "/usr/lib/libfmt.so" libraries linking
      rfl rfl rfl (by decide) (by decide) (by decide) (by decide) (by decide) (by decide)
  have isEntry : linkFlag "/usr/lib/libfmt.so" = "-lfmt" := isNamed.mpr (by decide)
  exact ⟨isEntry, isEntry ▸ isPrinted, searched, isSearched, isFound⟩

/-- A library whose name has a dot is not linked by its name. -/
theorem exists_not_linked_by_name :
    ¬ ∀ (flags : Flags) (options : PrintOptions) (directory name extension : String),
        options.versionOnly = false → options.searchDirectories = true →
        options.links = true → directory ≠ "" → name ≠ "" → '/' ∉ name.toList →
        extension ∈ libraryExtensions →
        directory ++ "/" ++ libraryFile name extension ∈ flags.linkLocations →
        "-l" ++ name ∈ flags.printed options := by
  intro all
  have isPrinted := all libraries linking "/usr/lib" "glib-2.0" "so" rfl rfl rfl (by decide)
    (by decide) (by decide) (by decide) (by decide)
  have notPrinted : "-l" ++ "glib-2.0" ∉ libraries.printed linking := by decide +kernel
  exact notPrinted isPrinted

end Flags
end PackageFlags
