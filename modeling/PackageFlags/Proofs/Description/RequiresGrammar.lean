import PackageFlags.Description.RequiresList
import PackageFlags.Proofs.Outcome
import PackageFlags.Proofs.Runs

/-!
# The grammar of lists of required packages

A text has one sequence of tokens: its maximal words, and its signs, each with the
equals sign behind it if there is one. A list is read exactly if its tokens are entries
one after another, and these are the entries that are read. So a list may be spaced in
any way that keeps its words apart, and nothing that is written in it gets lost.
-/

namespace PackageFlags

/-! ## Operators -/

namespace Version.Operator

/-- The symbols that stand for an operator. -/
def symbols : Operator -> List String
  | .equal => ["=", "=="]
  | operator => [operator.symbol]

theorem ofSymbol?_eq_some_iff {text : String} {operator : Operator} :
    ofSymbol? text = some operator ↔ text ∈ operator.symbols := by
  constructor
  · intro isOperator
    unfold ofSymbol? at isOperator
    split at isOperator <;> cases isOperator <;> decide
  · intro isSymbol
    cases operator <;>
      simp only [symbols, List.mem_cons, List.not_mem_nil, or_false] at isSymbol
    case equal => rcases isSymbol with rfl | rfl <;> rfl
    all_goals
      rw [isSymbol]
      rfl

end Version.Operator

namespace Description

/-! ## Tokens -/

namespace RequiresToken

variable {c : Char} {text word rest : List Char} {tokens : List RequiresToken}

/-- Whether a character only separates tokens. -/
def separates (c : Char) : Bool :=
  Text.isBlank c || c = ','

/-- Some characters that can be part of a word, and no others. -/
def IsWord (word : List Char) : Prop :=
  word ≠ [] ∧ ∀ c ∈ word, isWordChar c = true

/-- The tokens of a text. No word is followed by a character that could be part of it,
and no sign that stands alone by an equals sign. -/
inductive Tokens : List Char -> List RequiresToken -> Prop
  | nil : Tokens [] []
  | separator
      {c : Char}
      {rest : List Char}
      {tokens : List RequiresToken}
      (isSeparator : separates c = true)
      (isRest : Tokens rest tokens) :
      Tokens (c :: rest) tokens
  | sign
      {c : Char}
      {rest : List Char}
      {tokens : List RequiresToken}
      (isSign : startsSign c = true)
      (standsAlone : rest.head? ≠ some '=')
      (isRest : Tokens rest tokens) :
      Tokens (c :: rest) (.sign (String.ofList [c]) :: tokens)
  | signWithEquals
      {c : Char}
      {rest : List Char}
      {tokens : List RequiresToken}
      (isSign : startsSign c = true)
      (isRest : Tokens rest tokens) :
      Tokens (c :: '=' :: rest) (.sign (String.ofList [c, '=']) :: tokens)
  | word
      {word rest : List Char}
      {tokens : List RequiresToken}
      (isWord : IsWord word)
      (isMaximal : ∀ next ∈ rest.head?, isWordChar next = false)
      (isRest : Tokens rest tokens) :
      Tokens (word ++ rest) (.word (String.ofList word) :: tokens)

/-- A character separates, starts a sign or is part of a word. -/
theorem isWordChar_eq (c : Char) : isWordChar c = !(separates c || startsSign c) := rfl

/-- What separates does not start a sign. -/
theorem startsSign_of_separates (isSeparator : separates c = true) :
    startsSign c = false := by
  rw [Bool.eq_false_iff]
  intro isSign
  simp only [startsSign, Bool.or_eq_true, decide_eq_true_eq] at isSign
  rcases isSign with ((rfl | rfl) | rfl) | rfl <;> contradiction

theorem isWordChar_of_startsSign (isSign : startsSign c = true) : isWordChar c = false := by
  rw [isWordChar_eq, isSign, Bool.or_true, Bool.not_true]

theorem startsSign_of_isWordChar (isPart : isWordChar c = true) : startsSign c = false := by
  rw [isWordChar_eq, Bool.not_eq_true', Bool.or_eq_false_iff] at isPart
  exact isPart.2

theorem isWordChar_of_separates (isSeparator : separates c = true) :
    isWordChar c = false := by
  rw [isWordChar_eq, isSeparator, Bool.true_or, Bool.not_true]

/-! ### Scanning -/

theorem scan_separator (isSeparator : separates c = true) (rest : List Char) :
    scan (c :: rest) = scan rest := by
  have notSign := startsSign_of_separates isSeparator
  have notWord := isWordChar_of_separates isSeparator
  cases rest <;> simp [scan, notSign, notWord]

theorem scan_sign
    (isSign : startsSign c = true)
    (standsAlone : rest.head? ≠ some '=') :
    scan (c :: rest) = .sign (String.ofList [c]) :: scan rest := by
  cases rest with
  | nil => simp [scan, isSign]
  | cons next rest =>
      have notEquals : next ≠ '=' := fun isEquals => standsAlone (congrArg some isEquals)
      simp [scan, isSign, notEquals]

theorem scan_word
    (isWord : IsWord word)
    (isMaximal : ∀ next ∈ rest.head?, isWordChar next = false) :
    scan (word ++ rest) = .word (String.ofList word) :: scan rest := by
  obtain ⟨isSome, areParts⟩ := isWord
  induction word with
  | nil => contradiction
  | cons c word wordScanned =>
      obtain ⟨isPart, areParts⟩ := List.forall_mem_cons.mp areParts
      have notSign := startsSign_of_isWordChar isPart
      cases word with
      | nil =>
          cases rest with
          | nil => simp [scan, notSign, isPart]
          | cons next rest =>
              have isEnd : isWordChar next = false := isMaximal next rfl
              simp [scan, notSign, isPart, isEnd]
      | cons next word =>
          have isScanned := wordScanned (List.cons_ne_nil next word) areParts
          have isNext : isWordChar next = true := areParts next List.mem_cons_self
          rw [List.cons_append] at isScanned
          rw [List.cons_append, List.cons_append, scan, if_neg (by simp [notSign]),
            if_pos isPart, if_pos isNext, isScanned, extendWord, String.toList_ofList]

/-- Scanning finds the tokens of a text. -/
theorem Tokens.scan_eq (areTokens : Tokens text tokens) : scan text = tokens := by
  induction areTokens with
  | nil => rfl
  | separator isSeparator _ restSame => rw [scan_separator isSeparator, restSame]
  | sign isSign standsAlone _ restSame => rw [scan_sign isSign standsAlone, restSame]
  | signWithEquals isSign _ restSame => simp [scan, isSign, restSame]
  | word isWord isMaximal _ restSame => rw [scan_word isWord isMaximal, restSame]

/-- A text that starts with a part of a word starts with a word that goes no further. -/
theorem exists_word (isPart : isWordChar c = true) (rest : List Char) :
    ∃ word more, IsWord word ∧ c :: rest = word ++ more
      ∧ ∀ next ∈ more.head?, isWordChar next = false := by
  refine ⟨c :: rest.takeWhile isWordChar, rest.dropWhile isWordChar, ⟨?_, ?_⟩, ?_,
    Text.head?_dropWhile_stops isWordChar rest⟩
  · exact List.cons_ne_nil _ _
  · exact List.forall_mem_cons.mpr ⟨isPart, fun _ => List.mem_takeWhile_imp⟩
  · rw [List.cons_append, List.takeWhile_append_dropWhile]

/-- Every text has tokens. -/
theorem exists_tokens (text : List Char) : ∃ tokens, Tokens text tokens := by
  -- the first separator, sign or word is taken off
  induction isLength : text.length using Nat.strong_induction_on generalizing text with
  | _ length shorter =>
    subst isLength
    cases text with
    | nil => exact ⟨[], .nil⟩
    | cons c rest =>
        obtain ⟨tokens, isRest⟩ := shorter rest.length (Nat.lt_succ_self _) rest rfl
        by_cases isSeparator : separates c = true
        · exact ⟨tokens, .separator isSeparator isRest⟩
        by_cases isSign : startsSign c = true
        · by_cases standsAlone : rest.head? = some '='
          · obtain ⟨more, rfl⟩ := List.head?_eq_some_iff.mp standsAlone
            obtain ⟨others, areOthers⟩ := shorter more.length
              (Nat.lt_succ_of_lt (Nat.lt_succ_self _)) more rfl
            exact ⟨_, .signWithEquals isSign areOthers⟩
          · exact ⟨_, .sign isSign standsAlone isRest⟩
        · have isPart : isWordChar c = true := by simp [isWordChar_eq, isSeparator, isSign]
          obtain ⟨word, more, isWord, isSplit, isMaximal⟩ := exists_word isPart rest
          rw [isSplit] at shorter ⊢
          obtain ⟨others, areOthers⟩ := shorter more.length
            (by simpa using List.length_pos_iff.mpr isWord.1) more rfl
          exact ⟨_, .word isWord isMaximal areOthers⟩

/-- The tokens of a text are those that scanning finds. -/
theorem tokens_iff : Tokens text tokens ↔ tokens = scan text := by
  constructor
  · exact fun areTokens => areTokens.scan_eq.symm
  · rintro rfl
    obtain ⟨tokens, areTokens⟩ := exists_tokens text
    rw [areTokens.scan_eq]
    exact areTokens

end RequiresToken

/-! ## Entries -/

namespace RequiredPackage

open RequiresToken

variable {text : List Char} {tokens : List RequiresToken} {entries : List RequiredPackage}

/-- The entries that tokens are: each is a word, or two words with an operator between
them. -/
inductive Lists : List RequiresToken -> List RequiredPackage -> Prop
  | nil : Lists [] []
  | name
      (name : String)
      {tokens : List RequiresToken}
      {entries : List RequiredPackage}
      (isRest : Lists tokens entries) :
      Lists (.word name :: tokens) ({ name } :: entries)
  | constrained
      (name version : String)
      {symbol : String}
      {operator : Version.Operator}
      (isSymbol : symbol ∈ operator.symbols)
      {tokens : List RequiresToken}
      {entries : List RequiredPackage}
      (isRest : Lists tokens entries) :
      Lists (.word name :: .sign symbol :: .word version :: tokens)
        ({ name, constraint := some (operator, version) } :: entries)

/-- Tokens are read as the entries that they are. -/
theorem ofTokens_eq_ok_iff : ofTokens tokens = .ok entries ↔ Lists tokens entries := by
  constructor
  · intro isRead
    fun_induction ofTokens tokens generalizing entries with
    | case1 =>
        cases isRead
        exact .nil
    | case2 => contradiction
    | case3 => contradiction
    | case4 name symbol operator isOperator version rest restListed =>
        obtain ⟨others, areOthers, same⟩ := Outcome.bind_eq_ok.mp isRead
        cases same
        exact .constrained name version
          (Version.Operator.ofSymbol?_eq_some_iff.mp isOperator) (restListed areOthers)
    | case5 => contradiction
    | case6 name rest _ restListed =>
        obtain ⟨others, areOthers, same⟩ := Outcome.bind_eq_ok.mp isRead
        cases same
        exact .name name (restListed areOthers)
  · intro areListed
    induction areListed with
    | nil => rfl
    | name name isRest restRead =>
        cases isRest <;> simp only [ofTokens, restRead] <;> rfl
    | constrained name version isSymbol _ restRead =>
        rw [← Version.Operator.ofSymbol?_eq_some_iff] at isSymbol
        simp only [ofTokens, isSymbol, restRead]
        rfl

/-! ## Lists in writing -/

/-- Some characters that only separate, or none. -/
def IsGap (text : List Char) : Prop :=
  ∀ c ∈ text, separates c = true

/-- An entry in writing: a name, and behind it an operator and a version if there are
any, with any gaps around the operator. -/
inductive WritesEntry : RequiredPackage -> List Char -> Prop
  | name
      {name : String}
      (isName : IsWord name.toList) :
      WritesEntry { name } name.toList
  | constrained
      {name version symbol : String}
      {operator : Version.Operator}
      {before after : List Char}
      (isName : IsWord name.toList)
      (isBefore : IsGap before)
      (isSymbol : symbol ∈ operator.symbols)
      (isAfter : IsGap after)
      (isVersion : IsWord version.toList) :
      WritesEntry { name, constraint := some (operator, version) }
        (name.toList ++ before ++ symbol.toList ++ after ++ version.toList)

/-- A list in writing: its entries with gaps around them. An entry is kept apart from
what follows it. -/
inductive Writes : List RequiredPackage -> List Char -> Prop
  | nil
      {gap : List Char}
      (isGap : IsGap gap) :
      Writes [] gap
  | cons
      {gap text rest : List Char}
      {entry : RequiredPackage}
      {entries : List RequiredPackage}
      (isGap : IsGap gap)
      (isEntry : WritesEntry entry text)
      (isApart : ∀ next ∈ rest.head?, separates next = true)
      (isRest : Writes entries rest) :
      Writes (entry :: entries) (gap ++ text ++ rest)

end RequiredPackage

namespace RequiresToken

open RequiredPackage (IsGap)

variable {name symbol : String}

namespace Tokens

theorem of_gap
    {gap : List Char}
    (isGap : IsGap gap)
    (isRest : Tokens rest tokens) :
    Tokens (gap ++ rest) tokens := by
  induction gap with
  | nil => exact isRest
  | cons c gap gapTokens =>
      obtain ⟨isSeparator, isGap⟩ := List.forall_mem_cons.mp isGap
      exact .separator isSeparator (gapTokens isGap)

theorem of_name
    (isName : IsWord name.toList)
    (isMaximal : ∀ next ∈ rest.head?, isWordChar next = false)
    (isRest : Tokens rest tokens) :
    Tokens (name.toList ++ rest) (.word name :: tokens) := by
  have isWord := Tokens.word isName isMaximal isRest
  rwa [String.ofList_toList] at isWord

/-- The symbol of an operator is one token. -/
theorem of_symbol
    {operator : Version.Operator}
    (isSymbol : symbol ∈ operator.symbols)
    (standsAlone : rest.head? ≠ some '=')
    (isRest : Tokens rest tokens) :
    Tokens (symbol.toList ++ rest) (.sign symbol :: tokens) := by
  cases operator <;>
    simp only [Version.Operator.symbols, Version.Operator.symbol, List.mem_cons,
      List.not_mem_nil, or_false] at isSymbol
  case less | greater =>
    subst isSymbol
    exact .sign (by decide) standsAlone isRest
  case lessOrEqual | notEqual | greaterOrEqual =>
    subst isSymbol
    exact .signWithEquals (by decide) isRest
  case equal =>
    rcases isSymbol with rfl | rfl
    · exact .sign (by decide) standsAlone isRest
    · exact .signWithEquals (by decide) isRest

/-- Without tokens there are only separators. -/
theorem isGap (noTokens : Tokens text []) : IsGap text := by
  generalize areNone : ([] : List RequiresToken) = tokens at noTokens
  induction noTokens with
  | nil => exact nofun
  | separator isSeparator _ restGap =>
      exact List.forall_mem_cons.mpr ⟨isSeparator, restGap areNone⟩
  | sign => contradiction
  | signWithEquals => contradiction
  | word => contradiction

/-- A first token that is a word stands behind a gap, and the others behind it. -/
theorem exists_of_word (areTokens : Tokens text (.word name :: tokens)) :
    ∃ gap rest, IsGap gap ∧ IsWord name.toList
      ∧ text = gap ++ (name.toList ++ rest)
      ∧ (∀ next ∈ rest.head?, isWordChar next = false) ∧ Tokens rest tokens := by
  generalize areAll : RequiresToken.word name :: tokens = all at areTokens
  induction areTokens with
  | nil => contradiction
  | separator isSeparator _ restFound =>
      obtain ⟨gap, rest, isGap, isName, rfl, isMaximal, isRest⟩ := restFound areAll
      exact ⟨_ :: gap, rest, List.forall_mem_cons.mpr ⟨isSeparator, isGap⟩, isName, rfl,
        isMaximal, isRest⟩
  | sign => cases areAll
  | signWithEquals => cases areAll
  | word isWord isMaximal isRest =>
      cases areAll
      refine ⟨[], _, nofun, ?_, ?_, isMaximal, isRest⟩
      · rwa [String.toList_ofList]
      · rw [String.toList_ofList, List.nil_append]

/-- A first token that is a sign stands behind a gap, and the others behind it. -/
theorem exists_of_sign (areTokens : Tokens text (.sign symbol :: tokens)) :
    ∃ gap rest, IsGap gap ∧ text = gap ++ (symbol.toList ++ rest)
      ∧ Tokens rest tokens := by
  generalize areAll : RequiresToken.sign symbol :: tokens = all at areTokens
  induction areTokens with
  | nil => contradiction
  | separator isSeparator _ restFound =>
      obtain ⟨gap, rest, isGap, rfl, isRest⟩ := restFound areAll
      exact ⟨_ :: gap, rest, List.forall_mem_cons.mpr ⟨isSeparator, isGap⟩, rfl, isRest⟩
  | sign _ _ isRest =>
      cases areAll
      exact ⟨[], _, nofun, by rw [String.toList_ofList]; rfl, isRest⟩
  | signWithEquals _ isRest =>
      cases areAll
      exact ⟨[], _, nofun, by rw [String.toList_ofList]; rfl, isRest⟩
  | word => cases areAll

/-- Where no sign comes first, the text does not start with one. -/
theorem startsSign_head
    (areTokens : Tokens text tokens)
    (notSign : ∀ symbol others, tokens ≠ .sign symbol :: others) :
    ∀ next ∈ text.head?, startsSign next = false := by
  intro next isNext
  cases areTokens with
  | nil => contradiction
  | separator isSeparator _ =>
      cases isNext
      exact startsSign_of_separates isSeparator
  | sign => exact absurd rfl (notSign _ _)
  | signWithEquals => exact absurd rfl (notSign _ _)
  | word isWord _ _ =>
      obtain ⟨c, word, rfl⟩ := List.exists_cons_of_ne_nil isWord.1
      cases isNext
      exact startsSign_of_isWordChar (isWord.2 _ List.mem_cons_self)

end Tokens
end RequiresToken

/-! ## Reading what is written -/

namespace RequiredPackage

open RequiresToken

/-- What holds of all characters of two texts, the second of which is not empty, holds of
the first character of both. -/
theorem forall_mem_head?_append
    {holds : Char -> Prop}
    {first second : List Char}
    (isFirst : ∀ c ∈ first, holds c)
    (isSome : second ≠ [])
    (isSecond : ∀ c ∈ second, holds c)
    (rest : List Char) :
    ∀ c ∈ (first ++ (second ++ rest)).head?, holds c := by
  cases first with
  | cons c first =>
      rintro _ ⟨⟩
      exact isFirst c List.mem_cons_self
  | nil =>
      obtain ⟨c, second, rfl⟩ := List.exists_cons_of_ne_nil isSome
      rintro _ ⟨⟩
      exact isSecond c List.mem_cons_self

/-- The symbol of an operator is made of signs. -/
theorem startsSign_of_mem_symbols
    {symbol : String}
    {operator : Version.Operator}
    (isSymbol : symbol ∈ operator.symbols) :
    symbol.toList ≠ [] ∧ ∀ c ∈ symbol.toList, startsSign c = true := by
  rw [← List.all_eq_true]
  cases operator <;>
    simp only [Version.Operator.symbols, Version.Operator.symbol, List.mem_cons,
      List.not_mem_nil, or_false] at isSymbol
  case equal => rcases isSymbol with rfl | rfl <;> exact ⟨by decide, by decide⟩
  all_goals
    subst isSymbol
    exact ⟨by decide, by decide⟩

/-- An entry in writing has the tokens of the entry, in front of what it is kept apart
from. -/
theorem WritesEntry.exists_tokens
    {entry : RequiredPackage}
    {rest : List Char}
    (isEntry : WritesEntry entry text)
    (isApart : ∀ next ∈ rest.head?, separates next = true)
    (isRest : Tokens rest tokens)
    (areListed : Lists tokens entries) :
    ∃ all, Tokens (text ++ rest) all ∧ Lists all (entry :: entries) := by
  have isMaximal : ∀ next ∈ rest.head?, isWordChar next = false :=
    fun next isNext => isWordChar_of_separates (isApart next isNext)
  cases isEntry with
  | name isName => exact ⟨_, .of_name isName isMaximal isRest, .name _ areListed⟩
  | @constrained name version symbol _ before after isName isBefore isSymbol isAfter
      isVersion =>
      obtain ⟨isSome, areSigns⟩ := startsSign_of_mem_symbols isSymbol
      have nameEnds : ∀ next ∈
          (before ++ (symbol.toList ++ (after ++ (version.toList ++ rest)))).head?,
          isWordChar next = false :=
        forall_mem_head?_append
          (fun c isInside => isWordChar_of_separates (isBefore c isInside)) isSome
          (fun c isInside => isWordChar_of_startsSign (areSigns c isInside)) _
      have noEquals : ∀ next ∈ (after ++ (version.toList ++ rest)).head?,
          startsSign next = false :=
        forall_mem_head?_append
          (fun c isInside => startsSign_of_separates (isAfter c isInside)) isVersion.1
          (fun c isInside => startsSign_of_isWordChar (isVersion.2 c isInside)) rest
      have standsAlone : (after ++ (version.toList ++ rest)).head? ≠ some '=' :=
        fun isEquals => absurd (noEquals _ isEquals) (by decide)
      refine ⟨_, ?_, .constrained name version isSymbol areListed⟩
      simp only [List.append_assoc]
      exact .of_name isName nameEnds (.of_gap isBefore (.of_symbol isSymbol standsAlone
        (.of_gap isAfter (.of_name isVersion isMaximal isRest))))

/-- A list in writing has the tokens of its entries. -/
theorem Writes.exists_tokens (isWritten : Writes entries text) :
    ∃ tokens, Tokens text tokens ∧ Lists tokens entries := by
  induction isWritten with
  | @nil gap isGap =>
      refine ⟨[], ?_, .nil⟩
      have areNone := Tokens.of_gap isGap .nil
      rwa [List.append_nil] at areNone
  | cons isGap isEntry isApart _ restTokens =>
      obtain ⟨tokens, areTokens, areListed⟩ := restTokens
      obtain ⟨all, areAll, areEntries⟩ := isEntry.exists_tokens isApart areTokens areListed
      refine ⟨all, ?_, areEntries⟩
      rw [List.append_assoc]
      exact .of_gap isGap areAll

/-- Entries do not start with a sign. -/
theorem Lists.notSign (areListed : Lists tokens entries) :
    ∀ symbol others, tokens ≠ .sign symbol :: others := by
  rintro symbol others rfl
  cases areListed

/-- Behind a word, entries are kept apart from it. -/
theorem Lists.isApart
    (areListed : Lists tokens entries)
    (areTokens : Tokens text tokens)
    (isMaximal : ∀ next ∈ text.head?, isWordChar next = false) :
    ∀ next ∈ text.head?, separates next = true := by
  intro next isNext
  have notPart := isMaximal next isNext
  rw [isWordChar_eq, areTokens.startsSign_head areListed.notSign next isNext,
    Bool.or_false, Bool.not_eq_false'] at notPart
  exact notPart

/-- A text whose tokens are entries writes them. -/
theorem Lists.writes
    (areListed : Lists tokens entries)
    (areTokens : Tokens text tokens) :
    Writes entries text := by
  induction areListed generalizing text with
  | nil => exact .nil areTokens.isGap
  | name name isRest restWritten =>
      obtain ⟨gap, rest, isGap, isName, rfl, isMaximal, restTokens⟩ :=
        areTokens.exists_of_word
      rw [← List.append_assoc]
      exact .cons isGap (.name isName) (isRest.isApart restTokens isMaximal)
        (restWritten restTokens)
  | constrained name version isSymbol isRest restWritten =>
      obtain ⟨gap, behindName, isGap, isName, rfl, -, signTokens⟩ :=
        areTokens.exists_of_word
      obtain ⟨before, behindSign, isBefore, rfl, versionTokens⟩ :=
        signTokens.exists_of_sign
      obtain ⟨after, rest, isAfter, isVersion, rfl, isMaximal, restTokens⟩ :=
        versionTokens.exists_of_word
      have isWritten := Writes.cons isGap
        (.constrained isName isBefore isSymbol isAfter isVersion)
        (isRest.isApart restTokens isMaximal) (restWritten restTokens)
      simpa only [List.append_assoc] using isWritten

/-- A list is read exactly if its tokens, of which a text has one sequence, are entries
one after another. Then it is read as these entries, and otherwise there is a failure.
So what is read of a text are exactly the entries that the text writes, in whatever way
it spaces them. -/
theorem parseList_eq_ok_iff (text : String) :
    (∃ tokens, (∀ others, Tokens text.toList others ↔ others = tokens)
        ∧ (∀ entries, parseList text = .ok entries ↔ Lists tokens entries)
        ∧ ((∃ flaw, parseList text = .error flaw) ↔ ¬ ∃ entries, Lists tokens entries))
      ∧ ∀ entries, parseList text = .ok entries ↔ Writes entries text.toList := by
  have areListed : ∀ entries,
      parseList text = .ok entries ↔ Lists (scan text.toList) entries :=
    fun entries => ofTokens_eq_ok_iff
  refine ⟨⟨scan text.toList, fun others => tokens_iff, areListed, ?_⟩, fun entries => ?_⟩
  · simp only [← areListed]
    cases parseList text <;> simp
  · rw [areListed]
    constructor
    · exact fun isListed => isListed.writes (tokens_iff.mpr rfl)
    · intro isWritten
      obtain ⟨tokens, areTokens, isListed⟩ := isWritten.exists_tokens
      rwa [← areTokens.scan_eq] at isListed

example : (parseList "a>=2,b == 1 c").toOption =
    some [⟨"a", some (.greaterOrEqual, "2")⟩, ⟨"b", some (.equal, "1")⟩, ⟨"c", none⟩] := by
  decide +kernel

end RequiredPackage
end Description
end PackageFlags
