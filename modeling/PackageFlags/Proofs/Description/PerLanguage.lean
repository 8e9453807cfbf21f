import PackageFlags.Proofs.Description.LanguageLists

/-!
# Settings per language of the components of a package

What a component of a package is given for each language follows from its fields alone,
by one rule for compiler flags, include directories and definitions. So a field may be
written as an array or as an object with one list for any language, such a list can be
added without a change to the languages that have one of their own, and keys that name
no language can be added at will.
-/

namespace PackageFlags

/-! ## Fields that are replaced -/

namespace Json

variable {members : NameMap Value} {field other : String} {old new : Value}
variable {shape : Value -> Prop}

/-- A member may take the place of another one that has a shape only if it has it too. -/
theorem Required.insert
    (isThere : members.get? field = some old)
    (keeps : shape old → shape new)
    (has : Required members other shape) :
    Required (members.insert field new) other shape := by
  obtain ⟨value, isValue, hasShape⟩ := has
  by_cases isField : other = field
  · subst isField
    obtain rfl := Option.some.inj (isThere.symm.trans isValue)
    exact ⟨new, NameMap.get?_insert_self .., keeps hasShape⟩
  · exact ⟨value, by rw [NameMap.get?_insert_of_ne isField, isValue], hasShape⟩

theorem Optional.insert
    (isThere : members.get? field = some old)
    (keeps : shape old → shape new)
    (has : Optional members other shape) :
    Optional (members.insert field new) other shape := by
  intro value isValue
  by_cases isField : other = field
  · subst isField
    rw [NameMap.get?_insert_self] at isValue
    exact Option.some.inj isValue ▸ keeps (has old isThere)
  · rw [NameMap.get?_insert_of_ne isField] at isValue
    exact has value isValue

theorem Optional.congr
    {right : NameMap Value}
    (same : right.get? field = members.get? field)
    (has : Optional members field shape) :
    Optional right field shape :=
  fun value isValue => has value (same ▸ isValue)

namespace Value

variable {keyed : NameMap Value} {key : String} {list : Value}

theorem not_isText_of_members? (isObject : old.members? = some keyed) :
    ¬ old.IsText := by
  rintro ⟨text, rfl⟩
  contradiction

theorem not_isTextList_of_members? (isObject : old.members? = some keyed) :
    ¬ old.IsTextList := by
  rintro ⟨items, rfl, _⟩
  contradiction

/-- A text stays when an object is replaced. -/
theorem get?_insert_of_text
    {text : String}
    (isThere : members.get? field = some old)
    (isObject : old.members? = some keyed)
    (isText : members.get? other = some (.string text)) :
    (members.insert field new).get? other = some (.string text) := by
  rw [NameMap.get?_insert_of_ne, isText]
  rintro rfl
  exact not_isText_of_members? isObject ⟨text, Option.some.inj (isThere.symm.trans isText)⟩

/-- Settings per language may be given one more list. -/
theorem IsPerLanguage.insert
    (isKeyed : old.members? = some keyed)
    (isAfter : new.members? = some (keyed.insert key list))
    (isList : list.IsTextList)
    (has : old.IsPerLanguage) :
    new.IsPerLanguage := by
  obtain ⟨members, areMembers, areLists⟩ :=
    has.resolve_left (not_isTextList_of_members? isKeyed)
  obtain rfl := Option.some.inj (isKeyed.symm.trans areMembers)
  refine Or.inr ⟨_, isAfter, fun other member isMember => ?_⟩
  rw [NameMap.get?_insert] at isMember
  split at isMember
  · exact Option.some.inj isMember ▸ isList
  · exact areLists other member isMember

end Value
end Json

namespace Description
namespace Cps

open Json (Optional Required Value)
open Members (anyLanguage)
open Outcome (Succeeds)

variable {before after value : Value} {package : Package} {source : Path}
variable {name word : String} {fields : NameMap Value} {component : Component}

/-! ## Components and their fields -/

/-- The field that definitions are read from. -/
def definitionsField (fields : NameMap Value) : String :=
  if fields.contains "definitions" then "definitions" else "defines"

/-- What a component is given for each language is listed in its fields. -/
structure HasListed (fields : NameMap Value) (component : Component) : Prop where
  compileFlags : ∀ language,
    component.compileFlags.get? language = listed fields "compile_flags" language
  includes : ∀ language,
    component.includes.get? language = listed fields "includes" language
  definitions : ∀ language, component.definitions.get? language =
    (listed fields (definitionsField fields) language).map (List.map Definition.parse)

theorem readDefinitions_eq_field (members : Members) :
    readDefinitions members = members.definitions (definitionsField members.members) := by
  unfold readDefinitions definitionsField
  split <;> rfl

theorem get?_of_readDefinitions
    {members : Members}
    {settings : PerLanguage Definition}
    (areRead : readDefinitions members = .ok settings)
    (language : Language) :
    settings.get? language =
      (listed members.members (definitionsField members.members) language).map
        (List.map Definition.parse) := by
  rw [readDefinitions_eq_field] at areRead
  obtain ⟨texts, areTexts, rfl⟩ := Outcome.map_eq_ok.mp areRead
  rw [PerLanguage.map, PerLanguage.get?_ofFunction, Members.get?_of_perLanguage areTexts]

theorem hasListed_of_readKnownComponent
    {kind : ComponentKind}
    {members : Members}
    (isRead : readKnownComponent name kind members = .ok component) :
    HasListed members.members component := by
  unfold readKnownComponent at isRead
  obtain ⟨location, _, isRest⟩ := Outcome.bind_eq_ok.mp isRead
  split at isRest
  · rw [Outcome.throw_bind] at isRest
    contradiction
  · simp only [Outcome.bind_eq_ok, Outcome.pure_eq_ok] at isRest
    obtain ⟨definitions, areDefinitions, compileFlags, areFlags, includes, areIncludes, _,
      _, _, _, _, _, _, _, _, _, rfl⟩ := isRest
    exact ⟨Members.get?_of_perLanguage areFlags, Members.get?_of_perLanguage areIncludes,
      get?_of_readDefinitions areDefinitions⟩

/-- A component is only read of an object with a known type, and it has what is listed
in the fields of the object. -/
theorem componentIn_eq_ok_some
    {place : String}
    (isRead : componentIn place name value = .ok (some component)) :
    ∃ word fields, IsTyped word fields value
      ∧ (ComponentKind.ofName word).isKnown = true ∧ HasListed fields component := by
  obtain ⟨members, areMembers, isRest⟩ := Outcome.bind_eq_ok.mp isRead
  obtain ⟨fields, isObject, rfl⟩ := Members.asMembers_eq_ok.mp areMembers
  obtain ⟨word, isWord, isRest⟩ := Outcome.bind_eq_ok.mp isRest
  dsimp only at isRest
  split at isRest
  case isTrue isKnown =>
    obtain ⟨given, isGiven, same⟩ := Outcome.bind_eq_ok.mp isRest
    cases same
    exact ⟨word, fields, ⟨isObject, Members.requiredString_eq_ok.mp isWord⟩, isKnown,
      hasListed_of_readKnownComponent isGiven⟩
  case isFalse => cases isRest

/-- The components of a package are what is read of the objects under their names. -/
theorem get?_components_iff
    {components : NameMap Value}
    (isRead : ofValue value source = .ok package)
    (areComponents : value.membersAt? ["components"] = some components) :
    (∀ name object, components.get? name = some object →
        Succeeds (componentIn "components" name object))
      ∧ ∀ name component, package.components.get? name = some component ↔
          ∃ object, components.get? name = some object
            ∧ componentIn "components" name object = .ok (some component) := by
  obtain ⟨document, _, isObject, rfl, _, _, isLoaded, _⟩ := ofValue_eq_ok isRead
  obtain ⟨members, outer, sameObject, isOuter, isInner⟩ :=
    Value.membersAt?_cons_eq_some_iff.mp areComponents
  obtain rfl := Option.some.inj (isObject.symm.trans sameObject)
  have isPlace : (Members.mk document Members.documentPlace).placeOf "components" =
      "components" := if_pos rfl
  rw [readComponents_eq isOuter isInner, isPlace] at isLoaded
  split at isLoaded
  case isTrue => contradiction
  case isFalse =>
    obtain ⟨known, areKnown, isRest⟩ := Outcome.bind_eq_ok.mp isLoaded
    split at isRest
    case isTrue => contradiction
    case isFalse =>
      have isMap : NameMap.ofList known = package.components := Outcome.pure_eq_ok.mp isRest
      refine ⟨fun name object isObject => ?_, fun name component => ?_⟩
      · exact succeeds_readEach.mp ⟨known, areKnown⟩ _ (NameMap.get?_eq_some_iff.mp isObject)
      · rw [← isMap]
        exact get?_ofList_readEach areKnown

/-- A component of a known kind is loaded, with what is listed in its fields. -/
theorem exists_component
    (isRead : ofValue value source = .ok package)
    (areFields : value.membersAt? ["components", name] = some fields)
    (isType : fields.get? "type" = some (.string word))
    (isKnown : (ComponentKind.ofName word).isKnown = true) :
    ∃ component, package.components.get? name = some component
      ∧ HasListed fields component := by
  obtain ⟨document, outer, isDocument, isOuter, areComponents⟩ :=
    Value.membersAt?_cons_eq_some_iff.mp areFields
  obtain ⟨components, object, isInner, isObject, isFields⟩ :=
    Value.membersAt?_cons_eq_some_iff.mp areComponents
  have atComponents : value.membersAt? ["components"] = some components :=
    Value.membersAt?_cons_eq_some_iff.mpr ⟨document, outer, isDocument, isOuter, isInner⟩
  obtain ⟨succeeds, loaded⟩ := get?_components_iff isRead atComponents
  obtain ⟨component, isComponent⟩ := (exists_kept_iff (succeeds name object isObject)).mpr
    ⟨word, fields, ⟨isFields, isType⟩, isKnown_ofName_iff.mp isKnown⟩
  obtain ⟨_, sameFields, isTyped, _, hasListed⟩ := componentIn_eq_ok_some isComponent
  obtain rfl := Option.some.inj (isFields.symm.trans isTyped.1)
  exact ⟨component, (loaded name component).mpr ⟨object, isObject, isComponent⟩, hasListed⟩

/-- A component that is loaded is of a known kind and has what is listed in its
fields. -/
theorem exists_fields
    (isRead : ofValue value source = .ok package)
    (isComponent : package.components.get? name = some component) :
    ∃ word fields, value.membersAt? ["components", name] = some fields
      ∧ fields.get? "type" = some (.string word)
      ∧ (ComponentKind.ofName word).isKnown = true ∧ HasListed fields component := by
  obtain ⟨document, isDocument, has⟩ := succeeds_ofValue.mp ⟨package, isRead⟩
  obtain ⟨outer, isOuter, components, areComponents, _⟩ := has.components
  have atComponents : value.membersAt? ["components"] = some components :=
    Value.membersAt?_cons_eq_some_iff.mpr
      ⟨document, outer, isDocument, isOuter, areComponents⟩
  obtain ⟨object, isObject, isLoaded⟩ :=
    ((get?_components_iff isRead atComponents).2 name component).mp isComponent
  obtain ⟨word, fields, ⟨isFields, isType⟩, isKnown, hasListed⟩ :=
    componentIn_eq_ok_some isLoaded
  exact ⟨word, fields, Value.membersAt?_concat_eq_some atComponents isObject isFields,
    isType, isKnown, hasListed⟩

/-! ## Lists that are added for any language -/

section Inserted

variable {old new list : Value} {members keyed : NameMap Value} {field : String}

/-- An object in a component may take the place of another one that has settings per
language only if it has them too. -/
theorem IsComponent.insert
    {kind : String}
    (isThere : members.get? field = some old)
    (isKeyed : old.members? = some keyed)
    (keeps : old.IsPerLanguage → new.IsPerLanguage)
    (has : IsComponent kind members) :
    IsComponent kind (members.insert field new) := by
  have text : old.IsText → new.IsText :=
    fun isText => absurd isText (Value.not_isText_of_members? isKeyed)
  have textList : old.IsTextList → new.IsTextList :=
    fun isTextList => absurd isTextList (Value.not_isTextList_of_members? isKeyed)
  exact {
    location := has.location.insert isThere text
    located := fun notInterface => (has.located notInterface).insert isThere text
    linkLocation := has.linkLocation.insert isThere text
    linkFlags := has.linkFlags.insert isThere textList
    linkLibraries := has.linkLibraries.insert isThere textList
    linkRequires := has.linkRequires.insert isThere textList
    requires := has.requires.insert isThere textList
    compileFlags := has.compileFlags.insert isThere keeps
    includes := has.includes.insert isThere keeps
    definitions := has.definitions.insert isThere keeps
    defines := by
      intro isMissing
      refine (has.defines ?_).insert isThere keeps
      rw [NameMap.get?_insert] at isMissing
      split at isMissing
      · contradiction
      · exact isMissing }

/-- The components are those of a package if they were before one of them was changed in
this way. -/
theorem AreComponents.insert
    {components : NameMap Value}
    {outer outerAfter object objectAfter : Value}
    (isOuter : outer.members? = some components)
    (isObject : components.get? name = some object)
    (areMembers : object.members? = some members)
    (isThere : members.get? field = some old)
    (isKeyed : old.members? = some keyed)
    (keeps : old.IsPerLanguage → new.IsPerLanguage)
    (membersAfter : objectAfter.members? = some (members.insert field new))
    (isAfter : outerAfter.members? = some (components.insert name objectAfter))
    (has : AreComponents outer) :
    AreComponents outerAfter := by
  have typed : ∀ word others, IsTyped word others object →
      others = members ∧ IsTyped word (members.insert field new) objectAfter := by
    rintro word others ⟨areOthers, isType⟩
    obtain rfl := Option.some.inj (areMembers.symm.trans areOthers)
    exact ⟨rfl, membersAfter, Value.get?_insert_of_text isThere isKeyed isType⟩
  obtain ⟨same, isSame, haveSchema, kept, isKept, keptWord, keptMembers, isThereKept,
    keptTyped, isKnown⟩ := has
  obtain rfl := Option.some.inj (isOuter.symm.trans isSame)
  refine ⟨_, isAfter, fun other component isComponent => ?_, ?_⟩
  · rw [NameMap.get?_insert] at isComponent
    split at isComponent
    case isTrue =>
      obtain rfl := Option.some.inj isComponent
      obtain ⟨word, others, isTyped, hasSchema⟩ := haveSchema name object isObject
      obtain ⟨rfl, typedAfter⟩ := typed word others isTyped
      exact ⟨word, _, typedAfter, fun isKnown =>
        (hasSchema isKnown).insert isThere isKeyed keeps⟩
    case isFalse => exact haveSchema other component isComponent
  · by_cases isName : kept = name
    · subst isName
      obtain rfl := Option.some.inj (isObject.symm.trans isThereKept)
      obtain ⟨rfl, typedAfter⟩ := typed keptWord keptMembers keptTyped
      exact ⟨kept, objectAfter, keptWord, _, NameMap.get?_insert_self .., typedAfter,
        isKnown⟩
    · refine ⟨kept, isKept, keptWord, keptMembers, ?_, keptTyped, isKnown⟩
      rw [NameMap.get?_insert_of_ne isName, isThereKept]

/-- A description stays one when a list is put into the settings per language of a
component. -/
theorem IsDescription.insert
    {directory : Path}
    {key : String}
    (isPut : Value.Puts key list ["components", name, field] before after)
    (isList : list.IsTextList)
    (has : IsDescription directory before) :
    IsDescription directory after := by
  obtain ⟨document, outer, outerAfter, isDocument, isOuter, ⟨components, object,
    objectAfter, areComponents, isObject, ⟨members, old, new, areMembers, isThere,
    ⟨keyed, isKeyed, keyedAfter⟩, membersAfter⟩, componentsAfter⟩, documentAfter⟩ := isPut
  obtain ⟨same, isSame, has⟩ := has
  obtain rfl := Option.some.inj (isDocument.symm.trans isSame)
  have unchanged : ∀ other, other ≠ "components" →
      (document.insert "components" outerAfter).get? other = document.get? other :=
    fun other different => NameMap.get?_insert_of_ne different
  have areStill : AreComponents outer → AreComponents outerAfter :=
    AreComponents.insert areComponents isObject areMembers isThere isKeyed
      (Value.IsPerLanguage.insert isKeyed keyedAfter isList) membersAfter componentsAfter
  refine ⟨_, documentAfter, {
    name := by rw [unchanged _ (by decide)]; exact has.name
    cpsVersion := by rw [unchanged _ (by decide)]; exact has.cpsVersion
    components := has.components.insert isOuter areStill
    version := has.version.congr (unchanged _ (by decide))
    compatVersion := has.compatVersion.congr (unchanged _ (by decide))
    versionSchema := has.versionSchema.congr (unchanged _ (by decide))
    defaultComponents := has.defaultComponents.congr (unchanged _ (by decide))
    requires := has.requires.congr (unchanged _ (by decide))
    stated := has.stated.congr (unchanged _ (by decide))
    cpsPath := has.cpsPath.congr (unchanged _ (by decide))
    oneRoot := by
      rw [unchanged _ (by decide), unchanged _ (by decide)]
      exact has.oneRoot }⟩

/-- A list for any language makes no difference to a language that has one of its
own. -/
theorem listed_insert_any
    {language : Language}
    (isThere : members.get? field = some old)
    (isKeyed : old.members? = some keyed)
    (isAfter : new.members? = some (keyed.insert anyLanguage list))
    (isOwn : ∃ key ∈ language.spellings, keyed.contains key = true)
    (other : String) :
    listed (members.insert field new) other language = listed members other language := by
  by_cases isField : other = field
  · subst isField
    obtain ⟨own, hasOwn⟩ := Option.isSome_iff_exists.mp (ownList_isSome_iff.mpr isOwn)
    rw [listed_of_members? isThere isKeyed,
      listed_of_members? (NameMap.get?_insert_self ..) isAfter,
      listOf_insert_any, listOf, hasOwn]
    rfl
  · rw [listed, listed, NameMap.get?_insert_of_ne isField]

end Inserted

/-- Two components are given the same for a language. -/
structure SameFor (language : Language) (left right : Component) : Prop where
  compileFlags : left.compileFlags.get? language = right.compileFlags.get? language
  includes : left.includes.get? language = right.includes.get? language
  definitions : left.definitions.get? language = right.definitions.get? language

theorem HasListed.sameFor
    {language : Language}
    {others : NameMap Value}
    {other : Component}
    (has : HasListed fields component)
    (otherHas : HasListed others other)
    (same : ∀ field, listed others field language = listed fields field language)
    (sameField : definitionsField others = definitionsField fields) :
    SameFor language other component where
  compileFlags := by rw [otherHas.compileFlags, has.compileFlags, same]
  includes := by rw [otherHas.includes, has.includes, same]
  definitions := by rw [otherHas.definitions, has.definitions, sameField, same]

/-- With a list for any language a description still gives a package, in which the
languages with a list of their own are given what they were. -/
theorem ofValue_of_puts_any
    {field : String}
    {list : Value}
    {keyed : NameMap Value}
    (isPut : Value.Puts anyLanguage list (["components", name] ++ [field]) before after)
    (areKeyed : before.membersAt? ["components", name, field] = some keyed)
    (isList : list.IsTextList)
    (isRead : ofValue before source = .ok package) :
    ∃ extended, ofValue after source = .ok extended
      ∧ ∀ component, package.components.get? name = some component →
          ∃ other, extended.components.get? name = some other
            ∧ ∀ language,
                (∃ key ∈ language.spellings, keyed.contains key = true) →
                SameFor language other component := by
  obtain ⟨extended, isExtended⟩ := succeeds_ofValue.mpr
    ((succeeds_ofValue.mp ⟨package, isRead⟩).insert isPut isList)
  refine ⟨extended, isExtended, fun component isComponent => ?_⟩
  obtain ⟨word, fields, areFields, isType, isKnown, has⟩ := exists_fields isRead isComponent
  obtain ⟨members, old, new, areMembers, isThere, ⟨inner, isInner, isAfter⟩, isOutward⟩ :=
    isPut.outward
  obtain rfl := Option.some.inj (areFields.symm.trans areMembers)
  obtain rfl := Option.some.inj (areKeyed.symm.trans
    (Value.membersAt?_concat_eq_some areMembers isThere isInner))
  obtain ⟨others, sameFields, fieldsAfter⟩ := isOutward.exists_membersAt?
  obtain rfl := Option.some.inj (areFields.symm.trans sameFields)
  have typeAfter : (fields.insert field new).get? "type" = some (.string word) :=
    Value.get?_insert_of_text isThere isInner isType
  obtain ⟨other, isOther, otherHas⟩ :=
    exists_component isExtended fieldsAfter typeAfter isKnown
  refine ⟨other, isOther, fun language isOwn => has.sameFor otherHas
    (listed_insert_any isThere isInner isAfter isOwn) ?_⟩
  rw [definitionsField, NameMap.contains_insert_of_get? isThere, definitionsField]

/-- An array may be written as an object with the array for any language. -/
theorem ofValue_of_puts_object
    {field : String}
    {array object : Value}
    (isPerLanguage : field ∈ perLanguageFields)
    (areFields : before.membersAt? ["components", name] = some fields)
    (isArray : fields.get? field = some array)
    (isList : array.IsTextList)
    (isObject : object.members? = some (NameMap.empty.insert anyLanguage array))
    (isPut : Value.Puts field object ["components", name] before after)
    (source : Path) :
    ofValue after source = ofValue before source := by
  refine ofValue_of_puts_component isPut (fun place members areMembers => ?_) source
  obtain rfl := Option.some.inj (areFields.symm.trans areMembers)
  refine ReadAlike.of_insert isArray isPerLanguage ?_
  have isThere : (fields.insert field object).get? field = some object :=
    NameMap.get?_insert_self ..
  have arePerLanguage : object.IsPerLanguage := by
    refine Or.inr ⟨_, isObject, fun key list isKey => ?_⟩
    rw [NameMap.get?_insert] at isKey
    split at isKey
    · exact Option.some.inj isKey ▸ isList
    · contradiction
  rw [Members.perLanguage_eq_ok isThere arePerLanguage,
    Members.perLanguage_eq_ok isArray (Or.inl isList)]
  have same : ∀ language, listed (fields.insert field object) field language =
      listed fields field language := by
    intro language
    have noneOwn : ownList (NameMap.empty : NameMap Value) language = none := by
      simp [ownList]
    obtain ⟨items, rfl, _⟩ := isList
    rw [listed_of_members? isThere isObject, listOf_insert_any, noneOwn, listed, isArray]
    rfl
  rw [funext same]

/-- A list of strings under a new key that names no language makes no difference. -/
theorem ofValue_of_puts_language
    {field key : String}
    {list : Value}
    (isPerLanguage : field ∈ perLanguageFields)
    (isUnknown : Members.namesLanguage key = false)
    (isList : list.IsTextList)
    (isNew : ∀ keyed, before.membersAt? ["components", name, field] = some keyed →
      keyed.get? key = none)
    (isPut : Value.Puts key list (["components", name] ++ [field]) before after)
    (source : Path) :
    ofValue after source = ofValue before source := by
  obtain ⟨members, old, new, areMembers, isThere, ⟨keyed, isKeyed, isAfter⟩, isOutward⟩ :=
    isPut.outward
  refine ofValue_of_puts_component isOutward (fun place fields areFields => ?_) source
  obtain rfl := Option.some.inj (areMembers.symm.trans areFields)
  refine ReadAlike.of_insert isThere isPerLanguage (Members.perLanguage_insert isThere
    isKeyed isAfter (isNew keyed ?_) isList isUnknown)
  exact Value.membersAt?_concat_eq_some areMembers isThere isKeyed

/-- Settings per language follow one rule. Each component of a known kind is loaded with
what its fields list for each language: an array is for every language, and in an object
a language has the list under the last of its spellings that is a key, or else the list
under the key for any language, or else none. Definitions are read from the same lists,
in the field of the older name just when the newer one is missing. So an array may be
written as an object with the array for any language, a list for any language is no
reason to refuse a description and makes no difference to the languages that have one of
their own, and lists under new keys that name no language make no difference at all. -/
theorem ofValue_lists_languages (source : Path) :
    (∀ value package, ofValue value source = .ok package →
        ∀ name word fields, value.membersAt? ["components", name] = some fields →
        fields.get? "type" = some (.string word) →
        (ComponentKind.ofName word).isKnown = true →
        ∃ component, package.components.get? name = some component
          ∧ HasListed fields component)
      ∧ (∀ before after name field fields array object, field ∈ perLanguageFields →
          before.membersAt? ["components", name] = some fields →
          fields.get? field = some array → array.IsTextList →
          object.members? = some (NameMap.empty.insert anyLanguage array) →
          Value.Puts field object ["components", name] before after →
          ofValue after source = ofValue before source)
      ∧ (∀ before after name field keyed list package,
          before.membersAt? ["components", name, field] = some keyed → list.IsTextList →
          Value.Puts anyLanguage list ["components", name, field] before after →
          ofValue before source = .ok package →
          ∃ extended, ofValue after source = .ok extended
            ∧ ∀ component, package.components.get? name = some component →
                ∃ other, extended.components.get? name = some other
                  ∧ ∀ language,
                      (∃ key ∈ language.spellings, keyed.contains key = true) →
                      SameFor language other component)
      ∧ ∀ before after name field keyed key list, field ∈ perLanguageFields →
          before.membersAt? ["components", name, field] = some keyed →
          keyed.get? key = none → Language.ofName? key = none → key ≠ anyLanguage →
          list.IsTextList →
          Value.Puts key list ["components", name, field] before after →
          ofValue after source = ofValue before source := by
  refine ⟨?_, ?_, ?_, ?_⟩
  · intro value package isRead name word fields areFields isType isKnown
    exact exists_component isRead areFields isType isKnown
  · intro before after name field fields array object isPerLanguage areFields isArray isList
      isObject isPut
    exact ofValue_of_puts_object isPerLanguage areFields isArray isList isObject isPut source
  · intro before after name field keyed list package areKeyed isList isPut isRead
    exact ofValue_of_puts_any isPut areKeyed isList isRead
  · intro before after name field keyed key list isPerLanguage areKeyed isNew isUnknown
      notAny isList isPut
    refine ofValue_of_puts_language isPerLanguage (Members.namesLanguage_eq_false_iff.mpr
      ⟨isUnknown, notAny⟩) isList (fun members areMembers => ?_) isPut source
    exact Option.some.inj (areKeyed.symm.trans areMembers) ▸ isNew

/-- A description in which C++ has two spellings. -/
def spelledTwice : Value :=
  .object [
    ("name", .string "a"),
    ("cps_version", .string "0.10.0"),
    ("components", .object [
      ("x", .object [
        ("type", .string "interface"),
        ("compile_flags", .object [
          ("c++", .array [.string "-a"]),
          ("cpp", .array [.string "-b"]),
          ("*", .array [.string "-c"])]),
        ("includes", .array [.string "include"]),
        ("defines", .object [("fortran", .array [.string "A=1"])])])])]

/-- The last spelling counts, an array is for every language, and without a list for any
language there is none. -/
theorem ofValue_lists_languages_spelledTwice :
    ∃ package component, ofValue spelledTwice ⟨"/usr/lib/cps/a.cps"⟩ = .ok package
      ∧ package.components.get? "x" = some component
      ∧ component.compileFlags.get? .cxx = some ["-b"]
      ∧ component.compileFlags.get? .c = some ["-c"]
      ∧ component.includes.get? .fortran = some ["include"]
      ∧ component.definitions.get? .fortran = some [{ name := "A", value := some "1" }]
      ∧ component.definitions.get? .c = none := by
  obtain ⟨package, isRead⟩ := Outcome.eq_ok_of_isOk
    (by decide +kernel : (ofValue spelledTwice ⟨"/usr/lib/cps/a.cps"⟩).isOk = true)
  obtain ⟨component, isComponent, has⟩ :=
    (ofValue_lists_languages ⟨"/usr/lib/cps/a.cps"⟩).1 spelledTwice package isRead "x"
      "interface" _ rfl rfl rfl
  refine ⟨package, component, isRead, isComponent, ?_, ?_, ?_, ?_, ?_⟩
  · rw [has.compileFlags]
    rfl
  · rw [has.compileFlags]
    rfl
  · rw [has.includes]
    rfl
  · rw [has.definitions]
    rfl
  · rw [has.definitions]
    rfl

end Cps
end Description
end PackageFlags
