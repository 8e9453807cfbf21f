import PackageFlags.Proofs.Description.Schema
import PackageFlags.Proofs.Json.Places

/-!
# The members that descriptions are read from

A description is read by the names of its members. What is read of an object depends on
the members that have one of these names, and an object inside another one counts for
what is read of it. So a value that is put in somewhere makes no difference to the
package, or to what is wrong with the description, if it makes none to what is read in
its place.
-/

namespace PackageFlags
namespace Description

open Json (Value)

/-! ## Fields -/

namespace Members

variable {left right : NameMap Value} {place field : String}

section Congruence

variable (same : left.get? field = right.get? field)

include same

theorem required_congr :
    (Members.mk left place).required field = (Members.mk right place).required field := by
  simp only [required, same]

theorem requiredString_congr :
    (Members.mk left place).requiredString field =
      (Members.mk right place).requiredString field := by
  unfold requiredString
  rw [required_congr same]
  rfl

theorem optionalString_congr :
    (Members.mk left place).optionalString field =
      (Members.mk right place).optionalString field := by
  simp only [optionalString, optional, same]
  rfl

theorem optionalStrings_congr :
    (Members.mk left place).optionalStrings field =
      (Members.mk right place).optionalStrings field := by
  simp only [optionalStrings, optional, same]
  rfl

theorem strings_congr :
    (Members.mk left place).strings field = (Members.mk right place).strings field := by
  unfold strings
  rw [optionalStrings_congr same]

theorem perLanguage_congr :
    (Members.mk left place).perLanguage field =
      (Members.mk right place).perLanguage field := by
  simp only [perLanguage, same]
  rfl

end Congruence

end Members

namespace Cps

open Members (documentPlace)

/-! ## Components -/

/-- The fields of a component with settings per language, in an older spelling too. -/
def perLanguageFields : List String :=
  ["compile_flags", "includes", "definitions", "defines"]

/-- The fields of a component that are read as they are. -/
def plainFields : List String :=
  ["type", "location", "link_flags", "link_libraries", "link_requires",
    "link_location", "requires"]

/-- The fields of a component. -/
def componentFields : List String :=
  plainFields ++ perLanguageFields

/-- The same is read of every field of a component. -/
structure ReadAlike (place : String) (left right : NameMap Value) : Prop where
  plain : ∀ field ∈ plainFields, left.get? field = right.get? field
  perLanguage : ∀ field ∈ perLanguageFields,
    (Members.mk left place).perLanguage field = (Members.mk right place).perLanguage field
  /-- The newer of the two spellings is there, or is not. -/
  newer : left.contains "definitions" = right.contains "definitions"

namespace ReadAlike

variable {place : String} {left right : NameMap Value}

theorem readDefinitions_eq (alike : ReadAlike place left right) :
    readDefinitions ⟨left, place⟩ = readDefinitions ⟨right, place⟩ := by
  unfold readDefinitions Members.definitions
  rw [alike.perLanguage "definitions" (by decide), alike.perLanguage "defines" (by decide)]
  simp only [alike.newer]

theorem readKnownComponent_eq
    (alike : ReadAlike place left right)
    (name : String)
    (kind : ComponentKind) :
    readKnownComponent name kind ⟨left, place⟩ =
      readKnownComponent name kind ⟨right, place⟩ := by
  have optionalString : ∀ field ∈ plainFields,
      (Members.mk left place).optionalString field =
        (Members.mk right place).optionalString field :=
    fun field isPlain => Members.optionalString_congr (alike.plain field isPlain)
  have strings : ∀ field ∈ plainFields,
      (Members.mk left place).strings field = (Members.mk right place).strings field :=
    fun field isPlain => Members.strings_congr (alike.plain field isPlain)
  unfold readKnownComponent
  rw [alike.readDefinitions_eq, optionalString "location" (by decide),
    optionalString "link_location" (by decide), strings "link_flags" (by decide),
    strings "link_libraries" (by decide), strings "link_requires" (by decide),
    strings "requires" (by decide), alike.perLanguage "compile_flags" (by decide),
    alike.perLanguage "includes" (by decide)]

theorem readComponent_eq
    (alike : ReadAlike place left right)
    (name : String) :
    readComponent name ⟨left, place⟩ = readComponent name ⟨right, place⟩ := by
  unfold readComponent
  rw [Members.requiredString_congr (alike.plain "type" (by decide))]
  simp only [alike.readKnownComponent_eq]

/-- A member with a name that is not among those that are read makes no difference. -/
theorem of_insert_unread
    {members : NameMap Value}
    {field : String}
    {value : Value}
    (isUnread : field ∉ componentFields) :
    ReadAlike place (members.insert field value) members := by
  have unchanged : ∀ other, other ≠ field →
      (members.insert field value).get? other = members.get? other :=
    fun other different => NameMap.get?_insert_of_ne different
  refine ⟨fun other isPlain => unchanged other ?_, fun other isPerLanguage =>
    Members.perLanguage_congr (unchanged other ?_), ?_⟩
  · rintro rfl
    exact isUnread (List.mem_append_left _ isPlain)
  · rintro rfl
    exact isUnread (List.mem_append_right _ isPerLanguage)
  · rw [NameMap.contains, unchanged "definitions", NameMap.contains]
    rintro rfl
    exact isUnread (by decide)

/-- A field with settings per language may be written in another way, if the same is
read of it. -/
theorem of_insert
    {members : NameMap Value}
    {field : String}
    {value old : Value}
    (isThere : members.get? field = some old)
    (isPerLanguage : field ∈ perLanguageFields)
    (same : (Members.mk (members.insert field value) place).perLanguage field =
      (Members.mk members place).perLanguage field) :
    ReadAlike place (members.insert field value) members := by
  have notPlain : ∀ other ∈ plainFields, other ∉ perLanguageFields := by decide
  refine ⟨fun other isPlain => NameMap.get?_insert_of_ne ?_, fun other _ => ?_, ?_⟩
  · rintro rfl
    exact notPlain other isPlain isPerLanguage
  · by_cases isField : other = field
    · rw [isField, same]
    · exact Members.perLanguage_congr (NameMap.get?_insert_of_ne isField)
  · exact NameMap.contains_insert_of_get? isThere value "definitions"

end ReadAlike

/-! ## Maps of objects -/

section Each

variable {α β : Type} {read : String -> α -> Except Flaw (Option β)}

/-- Values that give nothing are passed over. -/
theorem readEach_cons_of_none
    {name : String}
    {value : α}
    (givesNone : read name value = .ok none)
    (rest : List (String × α)) :
    readEach read ((name, value) :: rest) = readEach read rest := by
  rw [readEach, givesNone]
  rfl

/-- A value may be put into a map if the same is read of it as of what was under its
name, or nothing if there was none. -/
theorem readEach_insertEntry
    {entries : List (String × α)}
    (increasing : entries.Pairwise fun left right => left.1 < right.1)
    {name : String}
    {value : α}
    (same : read name value = (entries.lookup name).elim (.ok none) (read name)) :
    readEach read (NameMap.insertEntry name value entries) = readEach read entries := by
  induction entries with
  | nil => exact readEach_cons_of_none same []
  | cons first rest restSame =>
      obtain ⟨firstName, firstValue⟩ := first
      obtain ⟨beforeRest, restIncreasing⟩ := List.pairwise_cons.mp increasing
      rw [NameMap.lookup_entry_cons] at same
      unfold NameMap.insertEntry
      split
      case isTrue isBefore =>
        have isNew : rest.lookup name = none := by
          refine List.lookup_eq_none_iff.mpr fun entry isEntry => ?_
          have isLess := String.lt_trans isBefore (beforeRest entry isEntry)
          simpa using String.ne_of_lt isLess
        rw [if_neg (String.ne_of_lt isBefore), isNew] at same
        exact readEach_cons_of_none same _
      case isFalse =>
        split
        case isTrue isFirst =>
          obtain rfl : name = firstName := isFirst
          rw [if_pos rfl, Option.elim_some] at same
          simp only [readEach, same]
        case isFalse notFirst =>
          rw [if_neg notFirst] at same
          simp only [readEach, restSame restIncreasing same]

theorem readEach_insert
    {map : NameMap α}
    {name : String}
    {value : α}
    (same : read name value = (map.get? name).elim (.ok none) (read name)) :
    readEach read (map.insert name value).entries = readEach read map.entries :=
  readEach_insertEntry map.increasing same

/-- A map of what is read of another one has, under each name, what is read of the value
under the name. -/
theorem get?_ofList_readEach
    {map : NameMap α}
    {results : List (String × β)}
    (areRead : readEach read map.entries = .ok results)
    {name : String}
    {given : β} :
    (NameMap.ofList results).get? name = some given ↔
      ∃ value, map.get? name = some value ∧ read name value = .ok (some given) := by
  have isReadOf : ∀ result, (NameMap.ofList results).get? name = some result →
      ∃ value, map.get? name = some value ∧ read name value = .ok (some result) := by
    intro result isResult
    obtain ⟨value, isEntry, gives⟩ := mem_readEach areRead _
      (NameMap.mem_of_mem_entries_ofList (NameMap.mem_entries_of_get? isResult))
    exact ⟨value, NameMap.get?_eq_some_iff.mpr isEntry, gives⟩
  refine ⟨isReadOf given, ?_⟩
  rintro ⟨value, isValue, gives⟩
  have isKept := mem_of_readEach areRead (NameMap.get?_eq_some_iff.mp isValue) gives
  obtain ⟨result, isResult⟩ := NameMap.mem_names_iff.mp (NameMap.mem_names_ofList isKept)
  obtain ⟨other, isOther, givesOther⟩ := isReadOf result isResult
  obtain rfl := Option.some.inj (isValue.symm.trans isOther)
  cases gives.symm.trans givesOther
  exact isResult

/-- Reading each value and then keeping the results under some of the names is to pass
over the values under the others. -/
theorem readEach_filter
    (read : String -> α -> Except Flaw β)
    (isKept : String -> Bool)
    (entries : List (String × α)) :
    readEach
        (fun name value => (read name value).map fun result =>
          if isKept name then some result else none)
        entries =
      (entries.mapM fun (entry : String × α) => do return (entry.1, ← read entry.1 entry.2)).map
        (List.filter fun entry => isKept entry.1) := by
  induction entries with
  | nil => rfl
  | cons first rest restSame =>
      obtain ⟨name, value⟩ := first
      rw [readEach, List.mapM_cons, restSame]
      dsimp only
      cases read name value with
      | error flaw => rfl
      | ok result =>
          cases (rest.mapM fun entry => do return (entry.1, ← read entry.1 entry.2)) with
          | error flaw => cases isKept name <;> rfl
          | ok results =>
              cases keeps : isKept name <;>
                simp [Except.map, Outcome.ok_bind, pure, Except.pure, keeps]

end Each

/-! ## Objects inside a document -/

/-- What is read of a value as the component that has a name in an object at a place. -/
def componentIn
    (place name : String)
    (value : Value) : Except Flaw (Option Component) := do
  readComponent name (← (Members.mk .empty place).asMembers name value)

/-- What is read of a value as the requirement that has a name in an object at a
place. -/
def requirementIn
    (place name : String)
    (value : Value) : Except Flaw (Option Requirement) := do
  return some (← readRequirement (← (Members.mk .empty place).asMembers name value))

section Inside

variable {document inner : NameMap Value} {place : String}
variable {outer outerAfter : Value} {name : String} {value : Value}

theorem readComponents_eq
    (isOuter : document.get? "components" = some outer)
    (isObject : outer.members? = some inner) :
    readComponents ⟨document, place⟩ = (do
      if inner.isEmpty then
        throw .noComponents
      let known ← readEach
        (componentIn ((Members.mk document place).placeOf "components")) inner.entries
      if known.isEmpty then
        throw .noKnownComponents
      return NameMap.ofList known) := by
  have isRead : (Members.mk document place).required "components" = .ok outer :=
    Members.required_eq_ok.mpr isOuter
  have areRead : (Members.mk document place).asMembers "components" outer =
      .ok ⟨inner, (Members.mk document place).placeOf "components"⟩ :=
    Members.asMembers_eq_ok.mpr ⟨inner, isObject, rfl⟩
  simp only [readComponents, isRead, areRead, Outcome.ok_bind]
  rfl

theorem readRequires_eq
    (isOuter : document.get? "requires" = some outer)
    (isObject : outer.members? = some inner) :
    readRequires ⟨document, place⟩ = (do
      let read ← readEach
        (requirementIn ((Members.mk document place).placeOf "requires")) inner.entries
      return NameMap.ofList read) := by
  have areRead : (Members.mk document place).asMembers "requires" outer =
      .ok ⟨inner, (Members.mk document place).placeOf "requires"⟩ :=
    Members.asMembers_eq_ok.mpr ⟨inner, isObject, rfl⟩
  simp only [readRequires, isOuter, areRead, Outcome.ok_bind]
  rfl

/-- A component may be put into a document if the same is read of it as of the one that
it takes the place of, or nothing if there was none. -/
theorem readComponents_insert
    (isOuter : document.get? "components" = some outer)
    (isObject : outer.members? = some inner)
    (isAfter : outerAfter.members? = some (inner.insert name value))
    (isSome : inner.isEmpty = false)
    (same : ∀ place, componentIn place name value =
      (inner.get? name).elim (.ok none) (componentIn place name)) :
    readComponents ⟨document.insert "components" outerAfter, place⟩ =
      readComponents ⟨document, place⟩ := by
  rw [readComponents_eq isOuter isObject,
    readComponents_eq (NameMap.get?_insert_self ..) isAfter,
    NameMap.isEmpty_insert, isSome, readEach_insert (same _)]
  rfl

/-- A requirement may take the place of another one if the same is read of it. -/
theorem readRequires_insert
    (isOuter : document.get? "requires" = some outer)
    (isObject : outer.members? = some inner)
    (isAfter : outerAfter.members? = some (inner.insert name value))
    (same : ∀ place, requirementIn place name value =
      (inner.get? name).elim (.ok none) (requirementIn place name)) :
    readRequires ⟨document.insert "requires" outerAfter, place⟩ =
      readRequires ⟨document, place⟩ := by
  rw [readRequires_eq isOuter isObject,
    readRequires_eq (NameMap.get?_insert_self ..) isAfter,
    readEach_insert (same _)]
  rfl

end Inside

section Objects

variable {value : Value} {members : NameMap Value}

theorem componentIn_eq
    (isObject : value.members? = some members)
    (place name : String) :
    componentIn place name value =
      readComponent name ⟨members, (Members.mk .empty place).placeOf name⟩ := by
  unfold componentIn Members.asMembers
  rw [isObject]
  rfl

/-- Nothing is read of a component of an unknown kind but its type. -/
theorem componentIn_of_unknown
    {word : String}
    (isTyped : IsTyped word members value)
    (isUnknown : (ComponentKind.ofName word).isKnown = false)
    (place name : String) :
    componentIn place name value = .ok none := by
  have isType : (Members.mk members ((Members.mk .empty place).placeOf name)).requiredString
      "type" = .ok word :=
    Members.requiredString_eq_ok.mpr isTyped.2
  rw [componentIn_eq isTyped.1, readComponent, isType, Outcome.ok_bind]
  exact if_neg (Bool.eq_false_iff.mp isUnknown)

theorem requirementIn_eq
    (isObject : value.members? = some members)
    (place name : String) :
    requirementIn place name value =
      (readRequirement ⟨members, (Members.mk .empty place).placeOf name⟩).map some := by
  unfold requirementIn Members.asMembers
  rw [isObject]
  rfl

end Objects

/-! ## Documents -/

/-- The fields of a document that are read as they are. -/
def plainDocumentFields : List String :=
  ["name", "cps_version", "version_schema", "prefix", "cps_path", "compat_version",
    "version", "default_components"]

/-- The fields of a document. -/
def documentFields : List String :=
  plainDocumentFields ++ ["components", "requires"]

/-- The fields of a requirement. -/
def requirementFields : List String :=
  ["components", "version"]

section Documents

variable {left right : NameMap Value} {before after : Value}

/-- The same package is read of documents of which the same fields are read. -/
theorem ofValue_congr
    (wereMembers : before.members? = some left)
    (areMembers : after.members? = some right)
    (plain : ∀ field ∈ plainDocumentFields, left.get? field = right.get? field)
    (components : readComponents ⟨left, documentPlace⟩ =
      readComponents ⟨right, documentPlace⟩)
    (requires : readRequires ⟨left, documentPlace⟩ =
      readRequires ⟨right, documentPlace⟩)
    (source : Path) :
    ofValue after source = ofValue before source := by
  have requiredString : ∀ field ∈ plainDocumentFields,
      (Members.mk left documentPlace).requiredString field =
        (Members.mk right documentPlace).requiredString field :=
    fun field isPlain => Members.requiredString_congr (plain field isPlain)
  have optionalString : ∀ field ∈ plainDocumentFields,
      (Members.mk left documentPlace).optionalString field =
        (Members.mk right documentPlace).optionalString field :=
    fun field isPlain => Members.optionalString_congr (plain field isPlain)
  have defaults : (Members.mk left documentPlace).optionalStrings "default_components" =
      (Members.mk right documentPlace).optionalStrings "default_components" :=
    Members.optionalStrings_congr (plain _ (by decide))
  have readsName : readName ⟨left, documentPlace⟩ = readName ⟨right, documentPlace⟩ := by
    unfold readName
    rw [requiredString "name" (by decide)]
  have readsBody : readBody ⟨left, documentPlace⟩ source =
      readBody ⟨right, documentPlace⟩ source := by
    funext name cpsVersion
    unfold readBody readSchema readRoot
    rw [components, requires, defaults, optionalString "version_schema" (by decide),
      optionalString "prefix" (by decide), optionalString "cps_path" (by decide),
      optionalString "compat_version" (by decide), optionalString "version" (by decide)]
  unfold ofValue
  simp only [wereMembers, areMembers, readsName, readsBody,
    requiredString "cps_version" (by decide)]

variable {name : String} {value : Value}

theorem readComponents_congr
    (same : left.get? "components" = right.get? "components") :
    readComponents ⟨left, documentPlace⟩ = readComponents ⟨right, documentPlace⟩ := by
  unfold readComponents
  rw [Members.required_congr same]
  rfl

theorem readRequires_congr
    (same : left.get? "requires" = right.get? "requires") :
    readRequires ⟨left, documentPlace⟩ = readRequires ⟨right, documentPlace⟩ := by
  simp only [readRequires, same]
  rfl

/-- A member that is not read as it is may be put into a document, if the components and
requirements are then read as before. -/
theorem ofValue_of_insert
    (wereMembers : before.members? = some left)
    (areMembers : after.members? = some (left.insert name value))
    (notPlain : name ∉ plainDocumentFields)
    (components : readComponents ⟨left.insert name value, documentPlace⟩ =
      readComponents ⟨left, documentPlace⟩)
    (requires : readRequires ⟨left.insert name value, documentPlace⟩ =
      readRequires ⟨left, documentPlace⟩)
    (source : Path) :
    ofValue after source = ofValue before source := by
  refine ofValue_congr wereMembers areMembers (fun field isPlain => ?_) components.symm
    requires.symm source
  rw [NameMap.get?_insert_of_ne]
  rintro rfl
  exact notPlain isPlain

/-- A member with a name that is not among those that are read makes no difference. -/
theorem ofValue_of_puts
    (isPut : Value.Puts name value [] before after)
    (isUnread : name ∉ documentFields)
    (source : Path) :
    ofValue after source = ofValue before source := by
  obtain ⟨members, wereMembers, areMembers⟩ := isPut
  refine ofValue_of_insert wereMembers areMembers
    (fun isPlain => isUnread (List.mem_append_left _ isPlain))
    (readComponents_congr (NameMap.get?_insert_of_ne ?_))
    (readRequires_congr (NameMap.get?_insert_of_ne ?_)) source
  · rintro rfl
    exact isUnread (by decide)
  · rintro rfl
    exact isUnread (by decide)

/-- A component may be put into a document that has components, if the same is read of
it as of the one that it takes the place of, or nothing if there was none. -/
theorem ofValue_of_puts_components
    (isPut : Value.Puts name value ["components"] before after)
    {components : NameMap Value}
    (areComponents : before.membersAt? ["components"] = some components)
    (isSome : components.isEmpty = false)
    (same : ∀ place, componentIn place name value =
      (components.get? name).elim (.ok none) (componentIn place name))
    (source : Path) :
    ofValue after source = ofValue before source := by
  obtain ⟨members, outer, outerAfter, wereMembers, isOuter, ⟨inner, isObject, isAfter⟩,
    areMembers⟩ := isPut
  obtain rfl : inner = components := by
    simpa [Value.membersAt?, wereMembers, isOuter, isObject] using areComponents
  exact ofValue_of_insert wereMembers areMembers (by decide)
    (readComponents_insert isOuter isObject isAfter isSome same)
    (readRequires_congr (NameMap.get?_insert_of_ne (by decide))) source

/-- A member may be put into a component, if the same is then read of it. -/
theorem ofValue_of_puts_component
    {component : String}
    (isPut : Value.Puts name value (["components"] ++ [component]) before after)
    (alike : ∀ place members, before.membersAt? ["components", component] = some members →
      ReadAlike place (members.insert name value) members)
    (source : Path) :
    ofValue after source = ofValue before source := by
  obtain ⟨components, inner, innerAfter, areComponents, isInner, ⟨members, isObject,
    isAfter⟩, isOutward⟩ := isPut.outward
  have areMembers : before.membersAt? ["components", component] = some members :=
    Value.membersAt?_concat_eq_some areComponents isInner isObject
  refine ofValue_of_puts_components isOutward areComponents
    (NameMap.isEmpty_of_get? isInner) (fun place => ?_) source
  rw [isInner, Option.elim_some, componentIn_eq isAfter, componentIn_eq isObject]
  exact (alike _ members areMembers).readComponent_eq component

/-- A member with another name than those that are read may be put into a
requirement. -/
theorem ofValue_of_puts_requirement
    {requirement : String}
    (isPut : Value.Puts name value (["requires"] ++ [requirement]) before after)
    (isUnread : name ∉ requirementFields)
    (source : Path) :
    ofValue after source = ofValue before source := by
  obtain ⟨requires, inner, innerAfter, areRequires, isInner, ⟨fields, isObject, isAfter⟩,
    ⟨members, outer, outerAfter, wereMembers, isOuter, ⟨same, isSame, isOuterAfter⟩,
    areMembers⟩⟩ := isPut.outward
  obtain rfl : same = requires := by
    simpa [Value.membersAt?, wereMembers, isOuter, isSame] using areRequires
  have unchanged : ∀ field ∈ requirementFields,
      (fields.insert name value).get? field = fields.get? field := by
    intro field isField
    refine NameMap.get?_insert_of_ne ?_
    rintro rfl
    exact isUnread isField
  refine ofValue_of_insert wereMembers areMembers (by decide)
    (readComponents_congr (NameMap.get?_insert_of_ne (by decide)))
    (readRequires_insert isOuter isSame isOuterAfter fun place => ?_) source
  rw [isInner, Option.elim_some, requirementIn_eq isAfter, requirementIn_eq isObject]
  unfold readRequirement
  rw [Members.strings_congr (unchanged "components" (by decide)),
    Members.optionalString_congr (unchanged "version" (by decide))]

end Documents
end Cps
end Description
end PackageFlags
