import Mathlib.Logic.Relation
import PackageFlags.Proofs.Description.PerLanguage

/-!
# Content that the schema does not know

A description may hold members that the schema does not know. However many of them are
added, and wherever they come to stand among the others, the same package is loaded, or
the same flaw is found first. So descriptions can be extended without a change to what
is read of them now.
-/

namespace PackageFlags
namespace Description
namespace Cps

open Json (Value)
open Members (anyLanguage)

/-- Something that the schema does not know is added to a document. -/
inductive Adds (before after : Value) : Prop
  /-- A member of the document. -/
  | toDocument
      {name : String}
      {member : Value}
      (isUnread : name ∉ documentFields)
      (isPut : Value.Puts name member [] before after)
  /-- A member of a component. -/
  | toComponent
      {component name : String}
      {member : Value}
      (isUnread : name ∉ componentFields)
      (isPut : Value.Puts name member ["components", component] before after)
  /-- A member of a requirement. -/
  | toRequirement
      {requirement name : String}
      {member : Value}
      (isUnread : name ∉ requirementFields)
      (isPut : Value.Puts name member ["requires", requirement] before after)
  /-- A component of an unknown kind, under a new name. -/
  | component
      {name word : String}
      {component : Value}
      {fields : NameMap Value}
      (isTyped : IsTyped word fields component)
      (isUnknown : (ComponentKind.ofName word).isKnown = false)
      (isNew : ∀ components, before.membersAt? ["components"] = some components →
        components.get? name = none)
      (isPut : Value.Puts name component ["components"] before after)
  /-- A list of strings in settings per language, under a new key that names no
  language. -/
  | toLanguages
      {component field key : String}
      {list : Value}
      (isPerLanguage : field ∈ perLanguageFields)
      (isUnknown : Language.ofName? key = none)
      (notAny : key ≠ anyLanguage)
      (isList : list.IsTextList)
      (isNew : ∀ keyed, before.membersAt? ["components", component, field] = some keyed →
        keyed.get? key = none)
      (isPut : Value.Puts key list ["components", component, field] before after)

/-- A document in which there are components. -/
def HasComponents (value : Value) : Prop :=
  ∃ components, value.membersAt? ["components"] = some components
    ∧ components.isEmpty = false

variable {before after : Value}

section Components

variable {name step : String} {member : Value} {path : List String}

/-- There is a component where one has been put in or changed. -/
theorem hasComponents_of_puts_inside
    (isPut : Value.Puts name member ("components" :: path) before after) :
    HasComponents after := by
  obtain ⟨members, inner, innerAfter, _, _, isPutInside, isAfter⟩ := isPut
  obtain ⟨components, areComponents, isSome⟩ := isPutInside.exists_members?
  exact ⟨components, Value.membersAt?_cons_eq_some_iff.mpr
    ⟨_, innerAfter, isAfter, NameMap.get?_insert_self .., areComponents⟩, isSome⟩

/-- The components of a document stay when another member of it is changed. -/
theorem HasComponents.of_insert
    {members : NameMap Value}
    (isBefore : before.members? = some members)
    (isAfter : after.members? = some (members.insert name member))
    (isOther : name ≠ "components")
    (hasComponents : HasComponents before) :
    HasComponents after := by
  obtain ⟨components, areComponents, isSome⟩ := hasComponents
  obtain ⟨same, inner, isSame, isInner, isObject⟩ :=
    Value.membersAt?_cons_eq_some_iff.mp areComponents
  obtain rfl := Option.some.inj (isBefore.symm.trans isSame)
  refine ⟨components, Value.membersAt?_cons_eq_some_iff.mpr
    ⟨_, inner, isAfter, ?_, isObject⟩, isSome⟩
  rw [NameMap.get?_insert_of_ne isOther.symm, isInner]

end Components

namespace Adds

/-- What is added leaves a document its components. -/
theorem hasComponents (adds : Adds before after) (has : HasComponents before) :
    HasComponents after := by
  cases adds with
  | toDocument isUnread isPut =>
      obtain ⟨members, isBefore, isAfter⟩ := isPut
      refine has.of_insert isBefore isAfter ?_
      rintro rfl
      exact isUnread (by decide)
  | toComponent isUnread isPut => exact hasComponents_of_puts_inside isPut
  | toRequirement isUnread isPut =>
      obtain ⟨members, inner, innerAfter, isBefore, _, _, isAfter⟩ := isPut
      exact has.of_insert isBefore isAfter (by decide)
  | component isTyped isUnknown isNew isPut => exact hasComponents_of_puts_inside isPut
  | toLanguages isPerLanguage isUnknown notAny isList isNew isPut =>
      exact hasComponents_of_puts_inside isPut

/-- What is added makes no difference to what is read. -/
theorem ofValue_eq
    (adds : Adds before after)
    (has : HasComponents before)
    (source : Path) :
    ofValue after source = ofValue before source := by
  cases adds with
  | toDocument isUnread isPut => exact ofValue_of_puts isPut isUnread source
  | toComponent isUnread isPut =>
      refine ofValue_of_puts_component isPut (fun place members _ => ?_) source
      exact ReadAlike.of_insert_unread isUnread
  | toRequirement isUnread isPut => exact ofValue_of_puts_requirement isPut isUnread source
  | component isTyped isUnknown isNew isPut =>
      obtain ⟨components, areComponents, isSome⟩ := has
      refine ofValue_of_puts_components isPut areComponents isSome (fun place => ?_) source
      rw [componentIn_of_unknown isTyped isUnknown, isNew components areComponents,
        Option.elim_none]
  | toLanguages isPerLanguage isUnknown notAny isList isNew isPut =>
      exact ofValue_of_puts_language isPerLanguage
        (Members.namesLanguage_eq_false_iff.mpr ⟨isUnknown, notAny⟩) isList isNew isPut source

end Adds

/-- Content that the schema does not know makes no difference, however much of it is
added. From a document with components and from what it has been extended to, the same
package is read, or the same failure comes of it, and so it is for texts of the two. A
key for any language is known, since it is for every language. -/
theorem load_ignores_unknown
    {value extended : Value}
    {components : NameMap Value}
    (areComponents : value.membersAt? ["components"] = some components)
    (isSome : components.isEmpty = false)
    (adds : Relation.ReflTransGen Adds value extended)
    (source : Path) :
    ofValue extended source = ofValue value source
      ∧ ∀ text extendedText, Json.parse text = some value →
          Json.parse extendedText = some extended →
          load extendedText source = load text source := by
  have unchanged : HasComponents extended
      ∧ ofValue extended source = ofValue value source := by
    induction adds with
    | refl => exact ⟨⟨components, areComponents, isSome⟩, rfl⟩
    | tail _ added unchanged =>
        obtain ⟨hasComponents, same⟩ := unchanged
        exact ⟨added.hasComponents hasComponents,
          (added.ofValue_eq hasComponents source).trans same⟩
  refine ⟨unchanged.2, fun text extendedText isText isExtendedText => ?_⟩
  unfold load
  rw [isText, isExtendedText]
  exact unchanged.2

/-- A description with more keys in the settings of its component, more components and
more members. -/
def withMore (keys components members : List (String × Value)) : Value :=
  .object ([("name", .string "a"), ("cps_version", .string "0.10.0")]
    ++ [("components", .object ([]
      ++ [("x", .object ([("type", .string "interface")]
        ++ [("compile_flags", .object ([("c", .array [.string "-a"])] ++ keys))]))]
      ++ components))]
    ++ members)

/-- A component of an unknown kind makes no difference though its location is a number,
nor does a key of an unknown language, nor a member that is no field. -/
theorem load_ignores_unknown_withMore :
    ∃ package, ofValue (withMore [] [] []) ⟨"/usr/lib/cps/a.cps"⟩ = .ok package
      ∧ ofValue (withMore
          [("rust", .array [.string "-r"])]
          [("w", .object [("type", .string "wasm"), ("location", .number "3")])]
          [("$schema", .null)])
          ⟨"/usr/lib/cps/a.cps"⟩ = .ok package := by
  have addsKey : Adds (withMore [] [] [])
      (withMore [("rust", .array [.string "-r"])] [] []) := by
    refine .toLanguages (by decide) rfl (by decide) ⟨[.string "-r"], rfl, ?_⟩ ?_
      (.concat_last [("name", .string "a"), ("cps_version", .string "0.10.0")] "components"
        (.concat_last [] "x" (.concat_last [("type", .string "interface")] "compile_flags"
          (.concat [("c", .array [.string "-a"])] "rust" (.array [.string "-r"])))))
    · simp [Value.IsText]
    · rintro keyed ⟨rfl⟩
      rfl
  have addsComponent : Adds (withMore [("rust", .array [.string "-r"])] [] [])
      (withMore [("rust", .array [.string "-r"])]
        [("w", .object [("type", .string "wasm"), ("location", .number "3")])] []) := by
    refine .component ⟨rfl, rfl⟩ rfl ?_
      (.concat_last [("name", .string "a"), ("cps_version", .string "0.10.0")] "components"
        (.concat _ "w" _))
    rintro components ⟨rfl⟩
    rfl
  have addsMember : Adds
      (withMore [("rust", .array [.string "-r"])]
        [("w", .object [("type", .string "wasm"), ("location", .number "3")])] [])
      (withMore [("rust", .array [.string "-r"])]
        [("w", .object [("type", .string "wasm"), ("location", .number "3")])]
        [("$schema", .null)]) :=
    .toDocument (by decide) (.concat _ "$schema" .null)
  obtain ⟨package, isRead⟩ := Outcome.eq_ok_of_isOk
    (by decide +kernel : (ofValue (withMore [] [] []) ⟨"/usr/lib/cps/a.cps"⟩).isOk = true)
  refine ⟨package, isRead, ?_⟩
  rw [← isRead]
  exact (load_ignores_unknown rfl rfl (((Relation.ReflTransGen.single addsKey).tail
    addsComponent).tail addsMember) _).1

end Cps
end Description
end PackageFlags
