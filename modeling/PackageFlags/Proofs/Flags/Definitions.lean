import PackageFlags.Proofs.Flags.Tokens
import PackageFlags.Proofs.Runs

/-!
# Definitions that are printed and read back

A definition is read from its written form, printed as a compiler flag, and read from
such a flag in a pkg-config description. The three agree: the flag of a definition stands
for that definition and for nothing else, as long as there is no blank in the written
form to cut the flag at.
-/

namespace PackageFlags

/-! ## Flags of definitions -/

namespace Definition

/-- A definition is written with a mark, and its flag undefines what is behind the mark,
or its flag defines what is written. -/
theorem flag_parse_cases (raw : String) :
    (∃ name, raw = "!" ++ name ∧ (parse raw).flag = "-U" ++ name)
      ∨ Text.dropStart "!" raw = none ∧ (parse raw).flag = "-D" ++ raw := by
  cases isMarked : Text.dropStart "!" raw with
  | some name =>
      refine Or.inl ⟨name, Text.dropStart_eq_some_iff.mp isMarked, ?_⟩
      simp [parse, isMarked, flag]
  | none => exact Or.inr ⟨rfl, flag_parse isMarked⟩

/-- The flag of a definition is a word exactly if nothing in the definition is blank. -/
theorem isWord_flag_parse_iff (raw : String) :
    Text.IsWord (parse raw).flag ↔ Text.NoBlank raw := by
  rcases flag_parse_cases raw with ⟨name, rfl, isFlag⟩ | ⟨_, isFlag⟩
  · have isUndefine : Text.IsWord "-U" := by decide +kernel
    have isMark : Text.NoBlank "!" := by decide +kernel
    rw [isFlag, isUndefine.append_iff, Text.noBlank_append_iff, and_iff_right isMark]
  · have isDefine : Text.IsWord "-D" := by decide +kernel
    rw [isFlag, isDefine.append_iff]

end Definition

/-! ## Reading flags back -/

namespace Description
namespace Legacy
namespace CompilerFlag

theorem parse_define (symbol : String) :
    parse ("-D" ++ symbol) =
      .definition (Definition.parse
        (String.ofList (symbol.toList.dropWhile (· = '!')))) := by
  have notInclude : Text.dropStart "-I" ("-D" ++ symbol) = none := by
    simp [Text.dropStart, Text.dropLead]
  have isDefine : Text.dropStart "-D" ("-D" ++ symbol) = some symbol :=
    Text.dropStart_eq_some_iff.mpr rfl
  simp only [parse, notInclude, isDefine]

theorem parse_undefine (name : String) :
    parse ("-U" ++ name) = .definition { name, undefine := true } := by
  have notInclude : Text.dropStart "-I" ("-U" ++ name) = none := by
    simp [Text.dropStart, Text.dropLead]
  have notDefine : Text.dropStart "-D" ("-U" ++ name) = none := by
    simp [Text.dropStart, Text.dropLead]
  have isUndefine : Text.dropStart "-U" ("-U" ++ name) = some name :=
    Text.dropStart_eq_some_iff.mpr rfl
  simp only [parse, notInclude, notDefine, isUndefine]

/-- The flag of a definition is read as that definition. -/
theorem parse_flag (raw : String) :
    parse (Definition.parse raw).flag = .definition (Definition.parse raw) := by
  rcases Definition.flag_parse_cases raw with ⟨name, rfl, isFlag⟩ | ⟨notMarked, isFlag⟩
  · have isMarked : Text.dropStart "!" ("!" ++ name) = some name :=
      Text.dropStart_eq_some_iff.mpr rfl
    rw [isFlag, parse_undefine, Definition.parse, isMarked]
  · rw [isFlag, parse_define, dropWhile_of_notMarked notMarked]

/-- What is defined by a word has a word for its flag. -/
theorem isWord_flag_of_parse
    {token : String}
    (isWord : Text.IsWord token)
    {made : Definition}
    (isMade : parse token = .definition made) :
    Text.IsWord made.flag := by
  have isDefine : Text.IsWord "-D" := by decide +kernel
  have reads := reads_parse token
  rw [isMade] at reads
  cases reads with
  | define symbol =>
      apply (Definition.isWord_flag_parse_iff _).mpr
      intro c isKept
      rw [String.toList_ofList] at isKept
      apply (isDefine.append_iff symbol).mp isWord
      exact List.dropWhile_subset _ isKept
  | undefine name => exact isWord

/-- Definitions without a blank are read from their flags, one for each flag. -/
theorem map_parse_words
    {raws : List String}
    (noBlank : ∀ raw ∈ raws, Text.NoBlank raw) :
    (Text.words (Text.joinWith " "
        (raws.map fun raw => (Definition.parse raw).flag))).map parse =
      (raws.map Definition.parse).map .definition := by
  have areWords : ∀ token ∈ raws.map fun raw => (Definition.parse raw).flag,
      Text.IsWord token := by
    intro token isToken
    obtain ⟨raw, isRaw, rfl⟩ := List.mem_map.mp isToken
    exact (Definition.isWord_flag_parse_iff raw).mpr (noBlank raw isRaw)
  rw [Text.words_joinWith areWords, List.map_map, List.map_map]
  apply List.map_congr_left
  intro raw _
  exact parse_flag raw

/-- The flag of a definition is read as that definition alone just if it is not cut. -/
theorem map_parse_words_flag_iff (raw : String) :
    (Text.words (Definition.parse raw).flag).map parse =
        [.definition (Definition.parse raw)] ↔
      Text.NoBlank raw := by
  constructor
  · intro isRead
    obtain ⟨token, isOnly, isMade⟩ := List.map_eq_singleton_iff.mp isRead
    have isWord : Text.IsWord token :=
      Text.isWord_of_mem_words (isOnly ▸ List.mem_singleton_self token)
    exact (Definition.isWord_flag_parse_iff raw).mp (isWord_flag_of_parse isWord isMade)
  · intro noBlank
    have noneBlank : ∀ other ∈ [raw], Text.NoBlank other :=
      List.forall_mem_singleton.mpr noBlank
    simpa only [List.map_cons, List.map_nil, Text.joinWith] using map_parse_words noneBlank

end CompilerFlag

/-- A description with compiler flags that all make definitions makes these for every
language, and has no include directory and no other flag. -/
theorem component_of_map_parse
    {known : Properties}
    {made : List Definition}
    (areRead : (Text.words (known.property "Cflags")).map CompilerFlag.parse =
      made.map .definition)
    (name : String)
    (entries : List RequiredPackage) :
    (component known name entries).definitions = .constantUnlessEmpty made
      ∧ (component known name entries).includes = .empty
      ∧ (component known name entries).compileFlags = .empty := by
  have areDefinitions : (made.map CompilerFlag.definition).filterMap
      CompilerFlag.definition? = made := by
    rw [List.filterMap_map]
    exact List.filterMap_some
  have noDirectories : (made.map CompilerFlag.definition).filterMap
      CompilerFlag.directory? = [] := by
    simp [CompilerFlag.directory?]
  have noOthers : (made.map CompilerFlag.definition).filterMap
      CompilerFlag.other? = [] := by
    simp [CompilerFlag.other?]
  unfold component
  dsimp only
  rw [areRead, areDefinitions, noDirectories, noOthers]
  exact ⟨rfl, rfl, rfl⟩

/-- Printed definitions are read back. The flag of a definition is read as one flag, which
makes that definition, exactly if nothing in its written form is blank. So, if nothing in
the definitions of some flags is blank, a description with their printed line for its
compiler flags makes the same definitions in the same order, and has no include directory
and no other flag. This holds for empty names, for values with equals signs or marks, for
repeated marks and for equals signs behind a mark. -/
theorem definitions_read_back :
    (∀ raw,
        (Text.words (Definition.parse raw).flag).map CompilerFlag.parse =
            [.definition (Definition.parse raw)] ↔
          Text.NoBlank raw)
      ∧ ∀ (flags : Flags) (language : Language) (raws : List String),
          flags.definitions.elements language = raws.map Definition.parse →
          (∀ raw ∈ raws, Text.NoBlank raw) →
          ∀ (known : Properties) (name : String) (entries : List RequiredPackage),
            known.property "Cflags" =
                flags.line { definitions := true, language := language } →
              (component known name entries).definitions =
                  .constantUnlessEmpty (raws.map Definition.parse)
                ∧ (component known name entries).includes = .empty
                ∧ (component known name entries).compileFlags = .empty := by
  refine ⟨CompilerFlag.map_parse_words_flag_iff, ?_⟩
  intro flags language raws areMade noBlank known name entries isLine
  have isPrinted : flags.line { definitions := true, language := language } =
      Text.joinWith " " (raws.map fun raw => (Definition.parse raw).flag) := by
    simp [Flags.line, Flags.printed, areMade, Function.comp_def]
  apply component_of_map_parse
  rw [isLine, isPrinted]
  exact CompilerFlag.map_parse_words noBlank

/-- A mark behind the first one, and an equals sign behind a mark, belong to the symbol;
the empty text defines the empty name. -/
theorem definitions_read_back_markedTwice :
    let made := component
      { properties := NameMap.empty.insert "Cflags" "-U!A=! -D -D=!x=" } "m" []
    made.definitions =
        .constant [{ name := "!A=!", undefine := true }, { name := "" },
          { name := "", value := some "!x=" }]
      ∧ made.includes = .empty
      ∧ made.compileFlags = .empty := by
  have areMade : ["!!A=!", "", "=!x="].map Definition.parse =
      [{ name := "!A=!", undefine := true }, { name := "" },
        { name := "", value := some "!x=" }] := by
    decide +kernel
  have makes := definitions_read_back.2
    { definitions := .constant (["!!A=!", "", "=!x="].map Definition.parse) } .c
    ["!!A=!", "", "=!x="] rfl (by decide +kernel)
    { properties := NameMap.empty.insert "Cflags" "-U!A=! -D -D=!x=" } "m" []
    (by decide +kernel)
  rw [areMade] at makes
  exact makes

end Legacy
end Description
end PackageFlags
