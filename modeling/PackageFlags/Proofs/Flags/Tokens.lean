import Mathlib.Data.List.Basic
import PackageFlags.Flags.Line
import PackageFlags.Flags.Merging
import PackageFlags.Proofs.InstallRoots

/-!
# Tokens of flags

The flags of a pkg-config description are tokens that are told apart by how they start.
What is read of a token is written out as the same token again, and every token is in
one category, so that printing by category regroups the tokens without changing them.
-/

namespace PackageFlags

/-! ## How a text starts -/

namespace Text

variable {lead text : String}

/-- Whether a text starts with another one. -/
def startsWith (lead text : String) : Bool :=
  lead.toList.isPrefixOf text.toList

theorem isSome_dropStart : (dropStart lead text).isSome = startsWith lead text := by
  rw [Bool.eq_iff_iff, Option.isSome_iff_exists, startsWith, List.isPrefixOf_iff_prefix]
  simp only [dropStart_eq_some_iff]
  constructor
  · rintro ⟨rest, rfl⟩
    exact ⟨rest.toList, String.toList_append.symm⟩
  · rintro ⟨chars, areChars⟩
    refine ⟨String.ofList chars, String.toList_injective ?_⟩
    rw [String.toList_append, String.toList_ofList, areChars]

/-- A text starts with one alone of two texts of the same length. -/
theorem startsWith_eq_false
    {other : String}
    (sameLength : lead.toList.length = other.toList.length)
    (different : lead ≠ other)
    (starts : startsWith lead text = true) :
    startsWith other text = false := by
  rw [Bool.eq_false_iff]
  intro startsOther
  have isLead := List.isPrefixOf_iff_prefix.mp starts
  have isOther := List.isPrefixOf_iff_prefix.mp startsOther
  have isBoth := List.prefix_of_prefix_length_le isLead isOther (Nat.le_of_eq sameLength)
  exact different (String.toList_injective (isBoth.eq_of_length sameLength))

end Text

/-! ## Definitions -/

/-- A symbol that is not marked as undefined is written out as it was read. -/
theorem Definition.flag_parse
    {symbol : String}
    (notMarked : Text.dropStart "!" symbol = none) :
    (parse symbol).flag = "-D" ++ symbol := by
  unfold parse
  rw [notMarked]
  cases isSplit : Text.splitOnce '=' symbol with
  | none => simp [flag]
  | some parts =>
      obtain ⟨name, value⟩ := parts
      rw [Text.splitOnce_eq_some isSplit]
      simp only [flag, Bool.false_eq_true, if_false, String.append_assoc]
      rfl

/-! ## Categories -/

/-- Two categories of tokens that are apart make up all tokens with the rest. -/
theorem filter_append_filter_append_rest_perm
    {tokens : List String}
    {first second : String -> Bool}
    (areApart : ∀ token, first token = true → second token = false) :
    (tokens.filter first ++ tokens.filter second
      ++ tokens.filter fun token => !(first token || second token)).Perm tokens := by
  have isSecond : tokens.filter second =
      (tokens.filter fun token => !first token).filter second := by
    rw [List.filter_filter]
    refine List.filter_congr fun token _ => ?_
    cases isFirst : first token <;> simp [areApart token, isFirst]
  have isRest : (tokens.filter fun token => !(first token || second token)) =
      (tokens.filter fun token => !first token).filter fun token => !second token := by
    rw [List.filter_filter]
    refine List.filter_congr fun token _ => ?_
    rw [Bool.not_or, Bool.and_comm]
  rw [isSecond, isRest, List.append_assoc]
  exact ((List.filter_append_perm second _).append_left _).trans
    (List.filter_append_perm first tokens)

/-- What is read of some tokens and written out again is these tokens, if it is each of
them. -/
theorem map_filterMap_eq_filter
    {α : Type}
    {tokens : List String}
    {read : String -> Option α}
    {write : α -> String}
    {holds : String -> Bool}
    (same : ∀ token ∈ tokens,
      (read token).map write = if holds token then some token else none) :
    (tokens.filterMap read).map write = tokens.filter holds := by
  rw [List.map_filterMap, ← List.filterMap_eq_filter]
  exact List.filterMap_congr same

/-! ## Compiler flags -/

namespace Description
namespace Legacy

/-- The tokens for include directories. -/
def isInclude (token : String) : Bool :=
  Text.startsWith "-I" token

/-- The tokens that define a symbol or undefine it. -/
def isDefinition (token : String) : Bool :=
  Text.startsWith "-D" token || Text.startsWith "-U" token

/-- The tokens of compiler flags in the categories that are printed: those that are
neither include directories nor definitions come first. -/
def compilerTokens (options : PrintOptions) (tokens : List String) : List String :=
  (if options.compileFlags then
      tokens.filter fun token => !(isInclude token || isDefinition token) else [])
    ++ (if options.includes then tokens.filter isInclude else [])
    ++ (if options.definitions then tokens.filter isDefinition else [])

namespace CompilerFlag

/-- Nothing is dropped in front of a symbol that is not marked. -/
theorem dropWhile_of_notMarked
    {symbol : String}
    (notMarked : Text.dropStart "!" symbol = none) :
    String.ofList (symbol.toList.dropWhile (· = '!')) = symbol := by
  have isKept : symbol.toList.dropWhile (· = '!') = symbol.toList := by
    cases areChars : symbol.toList with
    | nil => rfl
    | cons c rest =>
        have notMark : c ≠ '!' := by
          rintro rfl
          simp [Text.dropStart, areChars, Text.dropLead] at notMarked
        simp [notMark]
  rw [isKept, String.ofList_toList]

/-- What is read of tokens by how they start. -/
inductive Reads : String -> CompilerFlag -> Prop
  | directory (directory : String) :
      Reads ("-I" ++ directory) (.includeDirectory directory)
  | define (symbol : String) :
      Reads ("-D" ++ symbol) (.definition (Definition.parse
        (String.ofList (symbol.toList.dropWhile (· = '!')))))
  | undefine (symbol : String) :
      Reads ("-U" ++ symbol) (.definition { name := symbol, undefine := true })
  | other
      {token : String}
      (notInclude : isInclude token = false)
      (notDefinition : isDefinition token = false) :
      Reads token (.other token)

theorem reads_parse (token : String) : Reads token (parse token) := by
  unfold parse
  cases isDirectory : Text.dropStart "-I" token with
  | some directory =>
      rw [Text.dropStart_eq_some_iff.mp isDirectory]
      exact .directory directory
  | none =>
      cases isDefine : Text.dropStart "-D" token with
      | some symbol =>
          rw [Text.dropStart_eq_some_iff.mp isDefine]
          exact .define symbol
      | none =>
          cases isUndefine : Text.dropStart "-U" token with
          | some symbol =>
              rw [Text.dropStart_eq_some_iff.mp isUndefine]
              exact .undefine symbol
          | none =>
              refine .other ?_ ?_
              · rw [isInclude, ← Text.isSome_dropStart, isDirectory]
                rfl
              · rw [isDefinition, ← Text.isSome_dropStart, ← Text.isSome_dropStart,
                  isDefine, isUndefine]
                rfl

namespace Reads

variable {token : String} {flag : CompilerFlag}

/-- Other flags are kept as they are. -/
theorem other?_eq (reads : Reads token flag) :
    flag.other? =
      if !(isInclude token || isDefinition token) then some token else none := by
  cases reads with
  | directory directory => simp [other?, isInclude, Text.startsWith]
  | define symbol => simp [other?, isDefinition, Text.startsWith]
  | undefine symbol => simp [other?, isDefinition, Text.startsWith]
  | other notInclude notDefinition => simp [other?, notInclude, notDefinition]

/-- A directory is written out as it was read. -/
theorem directory?_eq (reads : Reads token flag) :
    flag.directory?.map ("-I" ++ ·) = if isInclude token then some token else none := by
  cases reads with
  | directory directory => simp [directory?, isInclude, Text.startsWith]
  | define symbol => simp [directory?, isInclude, Text.startsWith]
  | undefine symbol => simp [directory?, isInclude, Text.startsWith]
  | other notInclude notDefinition => simp [directory?, notInclude]

theorem eq_append_of_directory?
    (reads : Reads token flag)
    {directory : String}
    (isDirectory : flag.directory? = some directory) :
    token = "-I" ++ directory := by
  cases reads <;> cases isDirectory
  rfl

/-- A definition is written out as it was read, unless its symbol is marked. -/
theorem definition?_eq
    (reads : Reads token flag)
    (notMarked : ∀ symbol, token ≠ "-D!" ++ symbol) :
    flag.definition?.map Definition.flag =
      if isDefinition token then some token else none := by
  cases reads with
  | directory directory => simp [definition?, isDefinition, Text.startsWith]
  | define symbol =>
      have notStart : Text.dropStart "!" symbol = none := by
        refine Option.eq_none_iff_forall_ne_some.mpr fun rest isMarked => ?_
        refine notMarked rest ?_
        rw [Text.dropStart_eq_some_iff.mp isMarked, ← String.append_assoc]
        rfl
      rw [dropWhile_of_notMarked notStart]
      simp [definition?, isDefinition, Text.startsWith, Definition.flag_parse notStart]
  | undefine symbol => simp [definition?, isDefinition, Text.startsWith, Definition.flag]
  | other notInclude notDefinition => simp [definition?, notDefinition]

end Reads

variable {tokens : List String}

theorem filterMap_other? (tokens : List String) :
    (tokens.map parse).filterMap other? =
      tokens.filter fun token => !(isInclude token || isDefinition token) := by
  rw [List.filterMap_map, ← List.filterMap_eq_filter]
  exact List.filterMap_congr fun token _ => (reads_parse token).other?_eq

/-- Directories that do not start at the placeholder are written out as they were
read. -/
theorem written_directories
    (notPlaced : ∀ directory, "-I" ++ directory ∈ tokens →
      (Path.mk directory).segments.head? ≠ some rootPlaceholder)
    (root : Path) :
    (((tokens.map parse).filterMap directory?).map (InstallRoot.substitute root)).map
      ("-I" ++ ·) = tokens.filter isInclude := by
  rw [List.filterMap_map, List.map_map]
  refine map_filterMap_eq_filter fun token isToken => ?_
  rw [← (reads_parse token).directory?_eq]
  refine Option.map_congr fun directory isDirectory => ?_
  have isWritten := (reads_parse token).eq_append_of_directory? isDirectory
  have notFirst := notPlaced directory (isWritten ▸ isToken)
  rw [Function.comp_apply, InstallRoot.substitute_of_head?_ne notFirst]

/-- Definitions are written out as they were read if no symbol is marked. -/
theorem written_definitions (notMarked : ∀ symbol, "-D!" ++ symbol ∉ tokens) :
    ((tokens.map parse).filterMap definition?).map Definition.flag =
      tokens.filter isDefinition := by
  rw [List.filterMap_map]
  refine map_filterMap_eq_filter fun token isToken => ?_
  refine (reads_parse token).definition?_eq fun symbol same => ?_
  exact notMarked symbol (same ▸ isToken)

end CompilerFlag

/-! ## Linker flags -/

/-- The tokens for directories to search. -/
def isSearch (token : String) : Bool :=
  Text.startsWith "-L" token

/-- The tokens for libraries. -/
def isLibrary (token : String) : Bool :=
  Text.startsWith "-l" token

/-- The tokens of linker flags in the categories that are printed: those that are
neither directories to search nor libraries come last. -/
def linkerTokens (options : PrintOptions) (tokens : List String) : List String :=
  (if options.searchDirectories then tokens.filter isSearch else [])
    ++ (if options.links then tokens.filter isLibrary else [])
    ++ (if options.otherLinkFlags then
      tokens.filter fun token => !(isSearch token || isLibrary token) else [])

theorem isNone_libraryOf? (token : String) :
    (libraryOf? token).isNone = !isLibrary token := by
  rw [isLibrary, ← Text.isSome_dropStart, libraryOf?, Option.not_isSome]

theorem isSearchFlag_eq : Flags.isSearchFlag = isSearch :=
  funext fun _ => Text.isSome_dropStart

/-- A token for a directory to search is none for a library. -/
theorem isLibrary_of_isSearch
    {token : String}
    (starts : isSearch token = true) :
    isLibrary token = false :=
  Text.startsWith_eq_false (by decide) (by decide) starts

/-- Libraries are written out as they were read. -/
theorem written_libraries (tokens : List String) :
    (tokens.filterMap libraryOf?).map ("-l" ++ ·) = tokens.filter isLibrary := by
  refine map_filterMap_eq_filter fun token _ => ?_
  unfold libraryOf? isLibrary
  rw [← Text.isSome_dropStart]
  cases isLibrary : Text.dropStart "-l" token with
  | none => rfl
  | some library => simp [Text.dropStart_eq_some_iff.mp isLibrary]

theorem filter_isSearchFlag (tokens : List String) :
    (tokens.filter fun token => (libraryOf? token).isNone).filter Flags.isSearchFlag =
      tokens.filter isSearch := by
  rw [List.filter_filter, isSearchFlag_eq]
  refine List.filter_congr fun token _ => ?_
  rw [isNone_libraryOf?]
  cases starts : isSearch token with
  | true => simp [isLibrary_of_isSearch starts]
  | false => rfl

theorem filter_not_isSearchFlag (tokens : List String) :
    ((tokens.filter fun token => (libraryOf? token).isNone).filter
      fun token => !Flags.isSearchFlag token) =
        tokens.filter fun token => !(isSearch token || isLibrary token) := by
  rw [List.filter_filter, isSearchFlag_eq]
  refine List.filter_congr fun token _ => ?_
  rw [isNone_libraryOf?, Bool.not_or]

/-- Every token is in one of the three categories of compiler flags, and as often in it
as it was before. -/
theorem compilerTokens_perm
    {options : PrintOptions}
    (compileFlags : options.compileFlags = true)
    (includes : options.includes = true)
    (definitions : options.definitions = true)
    (tokens : List String) :
    (compilerTokens options tokens).Perm tokens := by
  have areApart : ∀ token, isInclude token = true → isDefinition token = false := by
    intro token starts
    simp only [isDefinition, Bool.or_eq_false_iff]
    exact ⟨Text.startsWith_eq_false (by decide) (by decide) starts,
      Text.startsWith_eq_false (by decide) (by decide) starts⟩
  simp only [compilerTokens, compileFlags, includes, definitions, if_true]
  rw [List.append_assoc]
  exact List.perm_append_comm.trans (filter_append_filter_append_rest_perm areApart)

/-- Every token is in one of the three categories of linker flags, and as often in it as
it was before. -/
theorem linkerTokens_perm
    {options : PrintOptions}
    (searchDirectories : options.searchDirectories = true)
    (links : options.links = true)
    (otherLinkFlags : options.otherLinkFlags = true)
    (tokens : List String) :
    (linkerTokens options tokens).Perm tokens := by
  simp only [linkerTokens, searchDirectories, links, otherLinkFlags, if_true]
  exact filter_append_filter_append_rest_perm fun _ => isLibrary_of_isSearch

/-! ## Components -/

variable {known : Properties} {name : String} {entries : List RequiredPackage}

/-- The settings of the component of a description, printed by category, are the tokens
that the description states them with. -/
theorem printed_of_component
    (notPlaced : ∀ directory, "-I" ++ directory ∈ Text.words (known.property "Cflags") →
      (Path.mk directory).segments.head? ≠ some rootPlaceholder)
    (notMarked : ∀ symbol, "-D!" ++ symbol ∉ Text.words (known.property "Cflags"))
    {root : Path}
    {flags : Flags}
    (areSettings : (component known name entries).settings? root =
      some flags.toSettings)
    (options : PrintOptions) :
    flags.printed options =
      compilerTokens options (Text.words (known.property "Cflags"))
        ++ linkerTokens options (Text.words (known.property "Libs")) := by
  simp only [Component.settings?, Component.artifacts, component, if_true,
    Option.map_some, Option.some.injEq] at areSettings
  simp only [Flags.printed, Flags.searchFlags, Flags.artifactSearchFlags,
    Flags.linkEntries, ← areSettings, PerLanguage.elements_map,
    PerLanguage.elements_constantUnlessEmpty, List.map_nil, List.filterMap_nil,
    List.eraseDups_nil, List.nil_append, CompilerFlag.filterMap_other?,
    CompilerFlag.written_directories notPlaced,
    CompilerFlag.written_definitions notMarked, filter_isSearchFlag, written_libraries,
    filter_not_isSearchFlag, compilerTokens, linkerTokens, List.append_assoc]

end Legacy
end Description
end PackageFlags
