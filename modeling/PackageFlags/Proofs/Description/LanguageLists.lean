import PackageFlags.Proofs.Description.FieldsRead

/-!
# The lists of a field per language

Which list a language gets from a field, said of the value of the field alone. An array
is for every language. In an object each language looks for a key of its own first, and
then for the key of the languages that have none. Other keys are read and left out.
-/

namespace PackageFlags

/-! ## Keys of languages -/

namespace Language

/-- The words that name a language, the last in byte order first. -/
def spellings : Language -> List String
  | .c => ["c"]
  | .cxx => ["cxx", "cpp", "c++"]
  | .fortran => ["fortran"]

theorem spellings_decrease (language : Language) :
    language.spellings.Pairwise fun left right => right < left := by
  cases language <;> decide +kernel

theorem ofName?_eq_some_iff {word : String} {language : Language} :
    ofName? word = some language ↔ word ∈ language.spellings := by
  constructor
  · intro isNamed
    unfold ofName? at isNamed
    split at isNamed <;> cases isNamed <;> decide
  · intro isSpelling
    cases language
    all_goals
      simp only [spellings, List.mem_cons, List.not_mem_nil, or_false] at isSpelling
    case c => rw [isSpelling]; rfl
    case cxx => rcases isSpelling with rfl | rfl | rfl <;> rfl
    case fortran => rw [isSpelling]; rfl

end Language

namespace NameMap

variable {α β : Type} {entries : List (String × α)}

theorem lookup_map_values (change : α -> β) (name : String) :
    (entries.map fun entry => (entry.1, change entry.2)).lookup name =
      (entries.lookup name).map change := by
  induction entries with
  | nil => rfl
  | cons first rest restSame =>
      rw [List.map_cons, lookup_entry_cons, lookup_entry_cons, restSame]
      split <;> rfl

theorem lookup_filter_names
    {isKept : String -> Bool}
    {name : String}
    (keeps : isKept name = true) :
    (entries.filter fun entry => isKept entry.1).lookup name = entries.lookup name := by
  induction entries with
  | nil => rfl
  | cons first rest restSame =>
      rw [List.filter_cons, lookup_entry_cons]
      split
      case isTrue => rw [lookup_entry_cons, restSame]
      case isFalse notKept =>
        have different : name ≠ first.1 := by
          rintro rfl
          exact notKept keeps
        rw [if_neg different, restSame]

/-- The entry that no other one comes after is the last one. -/
theorem getLast?_eq_some_of_forall
    (increasing : entries.Pairwise fun left right => left.1 < right.1)
    {entry : String × α}
    (isEntry : entry ∈ entries)
    (isLast : ∀ other ∈ entries, ¬ entry.1 < other.1) :
    entries.getLast? = some entry := by
  obtain ⟨before, after, rfl⟩ := List.append_of_mem isEntry
  cases after with
  | nil => rw [List.getLast?_concat]
  | cons next rest =>
      have isBefore := List.rel_of_pairwise_cons (List.pairwise_append.mp increasing).2.1
        (List.mem_cons_self : next ∈ next :: rest)
      exact absurd isBefore (isLast next (by simp))

/-- The last entry under one of several names is found under the first of the names
that has one, if the names decrease. -/
theorem getLast?_filter_mem
    (increasing : entries.Pairwise fun left right => left.1 < right.1)
    {names : List String}
    (decreasing : names.Pairwise fun left right => right < left) :
    (entries.filter fun entry => entry.1 ∈ names).getLast?.map Prod.snd =
      names.findSome? fun name => entries.lookup name := by
  induction names with
  | nil => simp
  | cons name names namesSame =>
      obtain ⟨areLess, decreasing⟩ := List.pairwise_cons.mp decreasing
      rw [List.findSome?_cons]
      cases isValue : entries.lookup name with
      | some value =>
          have isEntry : (name, value) ∈ entries := by
            obtain ⟨before, after, split, _⟩ := List.lookup_eq_some_iff.mp isValue
            simp [split]
          rw [getLast?_eq_some_of_forall (increasing.filter _)
            (List.mem_filter.mpr ⟨isEntry, by simp⟩)]
          · rfl
          · intro other isOther isLater
            have isName : other.1 ∈ name :: names := by
              simpa using (List.mem_filter.mp isOther).2
            rcases List.mem_cons.mp isName with same | isLess
            · exact String.lt_irrefl _ (same ▸ isLater)
            · exact String.lt_asymm isLater (areLess _ isLess)
      | none =>
          rw [← namesSame decreasing]
          congr 2
          refine List.filter_congr fun entry isEntry => ?_
          have different : entry.1 ≠ name := by
            rintro rfl
            have isMissing := List.lookup_eq_none_iff.mp isValue entry isEntry
            simp at isMissing
          simp [different]

end NameMap

namespace Json
namespace Value

/-- The texts in an array of strings. -/
def texts (value : Value) : List String :=
  (value.items?.getD []).filterMap text?

theorem items?_eq_none_of_members?
    {value : Value}
    {members : NameMap Value}
    (isObject : value.members? = some members) :
    value.items? = none := by
  cases value with
  | object written => rfl
  | _ => contradiction

end Value
end Json

namespace Description

open Json (Optional Value)

/-! ## What a language is given -/

/-- The list under a key that names a language, the last in byte order of several. -/
def ownList (keyed : NameMap Value) (language : Language) : Option (List String) :=
  language.spellings.findSome? fun key => (keyed.get? key).map Value.texts

/-- The list of a language in an object: its own, or else the one for any language. -/
def listOf (keyed : NameMap Value) (language : Language) : Option (List String) :=
  (ownList keyed language).or ((keyed.get? Members.anyLanguage).map Value.texts)

/-- The list of a language in a field: an array is for every language. -/
def listed
    (members : NameMap Value)
    (field : String)
    (language : Language) : Option (List String) :=
  (members.get? field).bind fun value =>
    match value.items?, value.members? with
    | some _, _ => some value.texts
    | none, some keyed => listOf keyed language
    | none, none => none

section Objects

variable {keyed members : NameMap Value} {field : String} {value list : Value}
variable {language : Language}

theorem listed_of_items?
    {items : List Value}
    (isField : members.get? field = some value)
    (areItems : value.items? = some items) :
    listed members field language = some value.texts := by
  simp only [listed, isField, Option.bind_some, areItems]

theorem listed_of_members?
    (isField : members.get? field = some value)
    (isKeyed : value.members? = some keyed) :
    listed members field language = listOf keyed language := by
  simp only [listed, isField, Option.bind_some, isKeyed,
    Value.items?_eq_none_of_members? isKeyed]

theorem ownList_isSome_iff :
    (ownList keyed language).isSome = true ↔
      ∃ key ∈ language.spellings, keyed.contains key = true := by
  unfold ownList NameMap.contains
  simp only [List.findSome?_isSome_iff, Option.isSome_map]

theorem ownList_insert_any :
    ownList (keyed.insert Members.anyLanguage list) language = ownList keyed language := by
  unfold ownList
  rw [← List.head?_filterMap, ← List.head?_filterMap]
  congr 1
  refine List.filterMap_congr fun key isSpelling => ?_
  rw [NameMap.get?_insert_of_ne]
  rintro rfl
  cases language <;> exact absurd isSpelling (by decide)

/-- With a list for any language, each language has its own list or this one. -/
theorem listOf_insert_any :
    listOf (keyed.insert Members.anyLanguage list) language =
      some ((ownList keyed language).getD list.texts) := by
  rw [listOf, ownList_insert_any, NameMap.get?_insert_self]
  cases ownList keyed language <;> rfl

end Objects

namespace Members

variable {here : Members} {field : String}

theorem texts_of_asStrings
    {value : Value}
    {list : List String}
    (areRead : here.asStrings field value = .ok list) :
    value.texts = list := by
  unfold asStrings at areRead
  split at areRead
  case h_1 items areItems =>
    rw [Value.texts, areItems, Option.getD_some]
    refine Outcome.filterMap_of_mapM (fun item text isText => ?_) areRead
    split at isText
    case h_1 read isRead => rw [isRead, Except.ok.inj isText]
    case h_2 => contradiction
  case h_2 => contradiction

/-- Lists by key are looked through for the keys of a language, the one that counts
first. -/
theorem listFor_eq
    {lists : List (String × List String)}
    (increasing : lists.Pairwise fun left right => left.1 < right.1)
    (language : Language) :
    listFor lists language =
      (language.spellings.findSome? fun key => lists.lookup key).or
        (lists.lookup anyLanguage) := by
  have isLast := NameMap.getLast?_filter_mem increasing language.spellings_decrease
  unfold listFor
  simp only [Language.ofName?_eq_some_iff]
  rw [← isLast]
  cases (lists.filter fun entry => entry.1 ∈ language.spellings).getLast? with
  | some last => rfl
  | none => rfl

/-- The settings that are read of a field have the lists that are said to be in it. -/
theorem get?_of_perLanguage
    {settings : PerLanguage String}
    (areRead : here.perLanguage field = .ok settings)
    (language : Language) :
    settings.get? language = listed here.members field language := by
  unfold perLanguage at areRead
  cases isField : here.members.get? field with
  | none =>
      rw [isField] at areRead
      cases areRead
      rw [listed, isField]
      cases language <;> rfl
  | some value =>
      simp only [isField] at areRead
      split at areRead
      case h_1 items _ areItems =>
        obtain ⟨list, isList, rfl⟩ := Outcome.map_eq_ok.mp areRead
        rw [listed_of_items? isField areItems, texts_of_asStrings isList,
          PerLanguage.constant, PerLanguage.get?_ofFunction]
      case h_2 keyed noItems areKeyed =>
        obtain ⟨lists, areLists, same⟩ := Outcome.bind_eq_ok.mp areRead
        have areTexts : (keyed.entries.map fun entry => (entry.1, entry.2.texts)) =
            lists := by
          rw [← List.filterMap_eq_map]
          refine Outcome.filterMap_of_mapM (fun entry result isRead => ?_) areLists
          obtain ⟨list, isList, same⟩ := Outcome.bind_eq_ok.mp isRead
          cases same
          rw [Function.comp_apply, texts_of_asStrings isList]
        have increasing : lists.Pairwise fun left right => left.1 < right.1 := by
          rw [← areTexts]
          exact List.pairwise_map.mpr keyed.increasing
        cases same
        rw [listed_of_members? isField areKeyed, PerLanguage.get?_ofFunction,
          listFor_eq increasing, ← areTexts]
        simp only [NameMap.lookup_map_values]
        rfl
      case h_3 => contradiction

/-- What is read of a field that has the shape of settings per language. -/
theorem perLanguage_eq_ok
    {value : Value}
    (isField : here.members.get? field = some value)
    (isPerLanguage : value.IsPerLanguage) :
    here.perLanguage field = .ok (.ofFunction (listed here.members field)) := by
  have hasShape : Optional here.members field Value.IsPerLanguage := fun other isOther =>
    Option.some.inj (isField.symm.trans isOther) ▸ isPerLanguage
  obtain ⟨settings, areRead⟩ := succeeds_perLanguage.mpr hasShape
  rw [areRead]
  congr 1
  ext1 language
  rw [PerLanguage.get?_ofFunction, get?_of_perLanguage areRead]

/-! ## Keys that name no language -/

/-- Whether a key names a language, or stands for those that have no key. -/
def namesLanguage (key : String) : Bool :=
  (Language.ofName? key).isSome || key = anyLanguage

theorem namesLanguage_eq_false_iff {key : String} :
    namesLanguage key = false ↔ Language.ofName? key = none ∧ key ≠ anyLanguage := by
  simp [namesLanguage]

/-- What is read under a key and kept of it. -/
def listUnder
    (here : Members)
    (field key : String)
    (list : Value) : Except Flaw (Option (List String)) :=
  (here.asStrings (field ++ "." ++ key) list).map fun texts =>
    if namesLanguage key then some texts else none

/-- Lists under keys that name no language are not looked at. -/
theorem listFor_filter (lists : List (String × List String)) (language : Language) :
    listFor (lists.filter fun entry => namesLanguage entry.1) language =
      listFor lists language := by
  have anyKept : namesLanguage anyLanguage = true := by decide
  unfold listFor
  rw [List.filter_filter, NameMap.lookup_filter_names anyKept]
  congr 3
  funext entry
  by_cases isNamed : Language.ofName? entry.1 = some language
  · simp [isNamed, namesLanguage]
  · simp [isNamed]

/-- An object is read key by key, and keys that name no language give nothing. -/
theorem perLanguage_eq
    {value : Value}
    {keyed : NameMap Value}
    (isField : here.members.get? field = some value)
    (isKeyed : value.members? = some keyed) :
    here.perLanguage field =
      (Cps.readEach (here.listUnder field) keyed.entries).map fun lists =>
        PerLanguage.ofFunction (listFor lists) := by
  have isRead : here.perLanguage field =
      (keyed.entries.mapM fun entry => do
        return (entry.1, ← here.asStrings (field ++ "." ++ entry.1) entry.2)) >>=
          fun lists => pure (PerLanguage.ofFunction (listFor lists)) := by
    simp only [perLanguage, isField, Value.items?_eq_none_of_members? isKeyed, isKeyed]
  unfold listUnder
  rw [isRead, Cps.readEach_filter]
  cases (keyed.entries.mapM fun entry => do
    return (entry.1, ← here.asStrings (field ++ "." ++ entry.1) entry.2)) with
  | error flaw => rfl
  | ok lists =>
      have same : listFor (lists.filter fun entry => namesLanguage entry.1) = listFor lists :=
        funext (listFor_filter lists)
      simp only [Except.map, same]
      rfl

/-- A list of strings under a new key that names no language makes no difference. -/
theorem perLanguage_insert
    {members keyed : NameMap Value}
    {place key : String}
    {value valueAfter list : Value}
    (isField : members.get? field = some value)
    (isKeyed : value.members? = some keyed)
    (isAfter : valueAfter.members? = some (keyed.insert key list))
    (isNew : keyed.get? key = none)
    (isList : list.IsTextList)
    (isUnknown : namesLanguage key = false) :
    (Members.mk (members.insert field valueAfter) place).perLanguage field =
      (Members.mk members place).perLanguage field := by
  have isThere : (members.insert field valueAfter).get? field = some valueAfter :=
    NameMap.get?_insert_self ..
  have givesNone : ∀ here : Members, here.listUnder field key list = .ok none := by
    intro here
    obtain ⟨texts, areRead⟩ := succeeds_asStrings.mpr isList
    rw [listUnder, areRead, isUnknown]
    rfl
  rw [perLanguage_eq isThere isAfter, perLanguage_eq isField isKeyed, Cps.readEach_insert]
  · rfl
  · rw [givesNone, isNew]
    rfl

end Members
end Description
end PackageFlags
