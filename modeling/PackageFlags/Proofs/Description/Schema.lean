import PackageFlags.Proofs.InstallRoots

/-!
# The schema of a description

Which JSON values describe a package, said of the value alone: which members an object
must have, and which shapes they may have. A description is read from a value exactly
when the value has the schema, so no field is left unchecked and no document that has
the schema is refused.
-/

namespace PackageFlags

namespace Description
namespace Cps

open Json (Optional Required Value)

/-- The words for the kinds of components that are read. -/
def knownKinds : List String :=
  ["executable", "archive", "dylib", "module", "jar", "interface", "symbolic"]

/-- The words for the ways in which versions may compare. -/
def schemaNames : List String :=
  ["simple", "custom", "rpm", "dpkg"]

/-- The members of a component of a known kind. -/
structure IsComponent
    (kind : String)
    (members : NameMap Value) : Prop where
  location : Optional members "location" Value.IsText
  located : kind ≠ "interface" → Required members "location" Value.IsText
  linkLocation : Optional members "link_location" Value.IsText
  linkFlags : Optional members "link_flags" Value.IsTextList
  linkLibraries : Optional members "link_libraries" Value.IsTextList
  linkRequires : Optional members "link_requires" Value.IsTextList
  requires : Optional members "requires" Value.IsTextList
  compileFlags : Optional members "compile_flags" Value.IsPerLanguage
  includes : Optional members "includes" Value.IsPerLanguage
  definitions : Optional members "definitions" Value.IsPerLanguage
  /-- The older name of the field counts when the newer one is missing. -/
  defines : members.get? "definitions" = none →
    Optional members "defines" Value.IsPerLanguage

/-- An object with these members, one of which is a word for its type. -/
def IsTyped
    (word : String)
    (members : NameMap Value)
    (value : Value) : Prop :=
  value.members? = some members ∧ members.get? "type" = some (.string word)

/-- An object of components, of which each has a type, one is of a known kind, and each
that is has the members of such a component. -/
def AreComponents (value : Value) : Prop :=
  ∃ components, value.members? = some components
    ∧ (∀ name component, components.get? name = some component →
        ∃ word members, IsTyped word members component
          ∧ (word ∈ knownKinds → IsComponent word members))
    ∧ ∃ name component word members, components.get? name = some component
        ∧ IsTyped word members component ∧ word ∈ knownKinds

/-- What a package asks of a dependency. -/
def IsRequirement (value : Value) : Prop :=
  ∃ members, value.members? = some members
    ∧ Optional members "components" Value.IsTextList
    ∧ Optional members "version" Value.IsText

/-- The members of a description that is found in a directory. -/
structure IsDocument
    (directory : Path)
    (members : NameMap Value) : Prop where
  name : ∃ name, members.get? "name" = some (.string name) ∧ name ≠ ""
  cpsVersion : members.get? "cps_version" = some (.string "0.10.0")
  components : Required members "components" AreComponents
  version : Optional members "version" Value.IsText
  compatVersion : Optional members "compat_version" Value.IsText
  versionSchema : Optional members "version_schema" fun value =>
    ∃ name ∈ schemaNames, value = .string name
  defaultComponents : Optional members "default_components" Value.IsTextList
  requires : Optional members "requires" (Value.IsObjectOf IsRequirement)
  stated : Optional members "prefix" Value.IsText
  cpsPath : Optional members "cps_path" fun value =>
    ∃ cpsPath, value = .string cpsPath ∧ InstallRoot.IsBelowRoot directory cpsPath
  /-- The root is not given in two ways. -/
  oneRoot : members.get? "prefix" = none ∨ members.get? "cps_path" = none

/-- A description that is found in a directory. -/
def IsDescription (directory : Path) (value : Value) : Prop :=
  ∃ members, value.members? = some members ∧ IsDocument directory members

/-! ## Reading documents -/

open Outcome (Succeeds)

variable {document fields : Members}

theorem succeeds_readDefinitions :
    Succeeds (readDefinitions fields) ↔
      Optional fields.members "definitions" Value.IsPerLanguage
        ∧ (fields.members.get? "definitions" = none →
            Optional fields.members "defines" Value.IsPerLanguage) := by
  unfold readDefinitions NameMap.contains
  by_cases isGiven : fields.members.get? "definitions" = none
  · simp [Members.succeeds_definitions, Optional, isGiven]
  · have isSome := Option.isSome_iff_ne_none.mpr isGiven
    simp [Members.succeeds_definitions, isGiven, isSome]

/-- A location is read of a component unless it is missing from an artifact. -/
theorem exists_location_iff {kind : ComponentKind} :
    (∃ location, fields.optionalString "location" = .ok location
      ∧ ¬ (kind ≠ .interface ∧ location = none)) ↔
      Optional fields.members "location" Value.IsText
        ∧ (kind ≠ .interface →
            Required fields.members "location" Value.IsText) := by
  simp only [Members.exists_optionalString_iff, Optional, Required, Value.IsText]
  cases fields.members.get? "location" with
  | none => simp
  | some value => cases value <;> simp

theorem isKnown_ofName_iff {word : String} :
    (ComponentKind.ofName word).isKnown = true ↔ word ∈ knownKinds := by
  unfold ComponentKind.ofName
  split <;> simp_all [ComponentKind.isKnown, knownKinds]

theorem ofName_eq_interface_iff {word : String} :
    ComponentKind.ofName word = .interface ↔ word = "interface" := by
  unfold ComponentKind.ofName
  split <;> simp_all

theorem succeeds_readKnownComponent {name word : String} :
    Succeeds (readKnownComponent name (ComponentKind.ofName word) fields) ↔
      IsComponent word fields.members := by
  simp only [readKnownComponent, Outcome.succeeds_bind, Outcome.succeeds_unless,
    Outcome.succeeds_pure, and_true, exists_and_right, ← and_assoc]
  simp only [Outcome.exists_eq_ok_iff, exists_location_iff, succeeds_readDefinitions,
    Members.succeeds_perLanguage, Members.succeeds_strings,
    Members.succeeds_optionalString, and_assoc]
  simp only [ne_eq, ofName_eq_interface_iff]
  constructor
  · rintro ⟨location, located, definitions, defines, compileFlags, includes, linkFlags,
      linkLibraries, linkRequires, linkLocation, requires⟩
    exact { location, located, linkLocation, linkFlags, linkLibraries, linkRequires,
            requires, compileFlags, includes, definitions, defines }
  · intro has
    exact ⟨has.location, has.located, has.definitions, has.defines, has.compileFlags,
      has.includes, has.linkFlags, has.linkLibraries, has.linkRequires,
      has.linkLocation, has.requires⟩

theorem succeeds_readRequirement :
    Succeeds (readRequirement fields) ↔
      Optional fields.members "components" Value.IsTextList
        ∧ Optional fields.members "version" Value.IsText := by
  simp only [readRequirement, Outcome.succeeds_bind, Outcome.succeeds_pure, and_true,
    exists_and_right]
  exact and_congr Members.succeeds_strings Members.succeeds_optionalString

/-! ### Maps of objects -/

section Each

variable {α β : Type} {read : String -> α -> Except Flaw (Option β)}
variable {entries : List (String × α)} {results : List (String × β)}

/-- Each value of a map is read. -/
theorem succeeds_readEach :
    Succeeds (readEach read entries) ↔
      ∀ entry ∈ entries, Succeeds (read entry.1 entry.2) := by
  induction entries with
  | nil => simp [readEach, Succeeds]
  | cons first rest restSucceeds =>
      obtain ⟨name, value⟩ := first
      rw [List.forall_mem_cons, ← restSucceeds, readEach, Outcome.succeeds_bind,
        ← Outcome.exists_eq_ok_iff, ← exists_and_right]
      refine exists_congr fun result => and_congr_right fun _ => ?_
      cases result with
      | none => rfl
      | some given =>
          simp only [Outcome.succeeds_bind, Outcome.succeeds_pure, and_true,
            Outcome.exists_eq_ok_iff]

/-- What a value of a map gives is kept. -/
theorem mem_of_readEach
    (isRead : readEach read entries = .ok results)
    {name : String}
    {value : α}
    (isEntry : (name, value) ∈ entries)
    {given : β}
    (gives : read name value = .ok (some given)) :
    (name, given) ∈ results := by
  induction entries generalizing results with
  | nil => contradiction
  | cons first rest restKept =>
      obtain ⟨result, isFirst, isRest⟩ := Outcome.bind_eq_ok.mp isRead
      cases result with
      | none =>
          refine restKept isRest ((List.mem_cons.mp isEntry).resolve_left ?_)
          rintro rfl
          cases gives.symm.trans isFirst
      | some kept =>
          obtain ⟨others, areOthers, same⟩ := Outcome.bind_eq_ok.mp isRest
          rw [← Outcome.pure_eq_ok.mp same]
          rcases List.mem_cons.mp isEntry with rfl | isLater
          · cases gives.symm.trans isFirst
            exact List.mem_cons_self
          · exact List.mem_cons_of_mem _ (restKept areOthers isLater)

/-- Something is kept of a map when each of its values is read and one of them gives
something. -/
theorem exists_readEach_iff :
    (∃ results, readEach read entries = .ok results ∧ ¬ results.isEmpty = true) ↔
      (∀ entry ∈ entries, Succeeds (read entry.1 entry.2))
        ∧ ∃ entry ∈ entries, ∃ given, read entry.1 entry.2 = .ok (some given) := by
  rw [← succeeds_readEach]
  constructor
  · rintro ⟨results, isRead, isSome⟩
    refine ⟨⟨results, isRead⟩, ?_⟩
    obtain ⟨result, isResult⟩ := List.exists_mem_of_ne_nil results
      (by simpa using isSome)
    obtain ⟨value, isEntry, gives⟩ := mem_readEach isRead result isResult
    exact ⟨(result.1, value), isEntry, result.2, gives⟩
  · rintro ⟨⟨results, isRead⟩, entry, isEntry, given, gives⟩
    have isResult := mem_of_readEach isRead isEntry gives
    exact ⟨results, isRead, by simpa using List.ne_nil_of_mem isResult⟩

end Each

section Components

variable {components : Members} {name : String} {value : Value}

/-- A component is read of an object with a type, and as a component if the schema
knows the kind. -/
theorem succeeds_readComponent :
    Succeeds (components.asMembers name value >>= readComponent name) ↔
      ∃ word members, IsTyped word members value
        ∧ (word ∈ knownKinds → IsComponent word members) := by
  have perKind : ∀ fields word,
      Succeeds (if (ComponentKind.ofName word).isKnown = true then do
          return some (← readKnownComponent name (ComponentKind.ofName word) fields)
        else return none) ↔
        (word ∈ knownKinds → IsComponent word fields.members) := by
    intro fields word
    rw [← isKnown_ofName_iff]
    split
    · rename_i isKnown
      simp only [Outcome.succeeds_bind, Outcome.succeeds_pure, and_true,
        Outcome.exists_eq_ok_iff, succeeds_readKnownComponent, isKnown, forall_const]
    · rename_i notKnown
      simp [notKnown]
  simp only [readComponent, Outcome.succeeds_bind, Members.exists_asMembers_iff,
    Members.requiredString_eq_ok, perKind]
  constructor
  · rintro ⟨members, isObject, word, isType, hasSchema⟩
    exact ⟨word, members, ⟨isObject, isType⟩, hasSchema⟩
  · rintro ⟨word, members, ⟨isObject, isType⟩, hasSchema⟩
    exact ⟨members, isObject, word, isType, hasSchema⟩

/-- Of a component that is read, something is kept if the schema knows its kind. -/
theorem exists_kept_iff
    (isRead : Succeeds (components.asMembers name value >>= readComponent name)) :
    (∃ component,
      components.asMembers name value >>= readComponent name = .ok (some component)) ↔
      ∃ word members, IsTyped word members value ∧ word ∈ knownKinds := by
  simp only [← isKnown_ofName_iff]
  obtain ⟨result, isRead⟩ := isRead
  obtain ⟨fields, areFields, readsType⟩ := Outcome.bind_eq_ok.mp isRead
  obtain ⟨members, isObject, rfl⟩ := Members.asMembers_eq_ok.mp areFields
  obtain ⟨word, isWord, readsKind⟩ := Outcome.bind_eq_ok.mp readsType
  have isType := Members.requiredString_eq_ok.mp isWord
  have isOnlyType : (∃ other others, IsTyped other others value
      ∧ (ComponentKind.ofName other).isKnown = true) ↔
      (ComponentKind.ofName word).isKnown = true := by
    simp_all [IsTyped]
  rw [isOnlyType]
  dsimp only at readsKind
  split at readsKind
  · rename_i isKnown
    obtain ⟨component, _, same⟩ := Outcome.bind_eq_ok.mp readsKind
    cases same
    exact ⟨fun _ => isKnown, fun _ => ⟨component, isRead⟩⟩
  · rename_i notKnown
    cases readsKind
    refine ⟨?_, fun isKnown => absurd isKnown notKnown⟩
    rintro ⟨component, isKept⟩
    cases isRead.symm.trans isKept

end Components

/-- Components are read of what has their schema. -/
theorem succeeds_readComponents :
    Succeeds (readComponents document) ↔
      Required document.members "components" AreComponents := by
  unfold readComponents
  simp only [Outcome.succeeds_bind, Outcome.succeeds_unless, Outcome.succeeds_pure,
    and_true, Members.required_eq_ok, Members.exists_asMembers_iff]
  refine exists_congr fun value => and_congr_right fun _ => ?_
  refine exists_congr fun components => and_congr_right fun _ => ?_
  simp only [exists_readEach_iff, succeeds_readComponent, NameMap.forall_entries_iff]
  constructor
  · rintro ⟨_, areTyped, ⟨name, component⟩, isEntry, isKept⟩
    have isComponent := NameMap.get?_eq_some_iff.mpr isEntry
    obtain ⟨word, members, isTyped, isKnown⟩ := (exists_kept_iff
      (succeeds_readComponent.mpr (areTyped name component isComponent))).mp isKept
    exact ⟨areTyped, name, component, word, members, isComponent, isTyped, isKnown⟩
  · rintro ⟨areTyped, name, component, word, members, isComponent, isTyped, isKnown⟩
    have isEntry := NameMap.get?_eq_some_iff.mp isComponent
    refine ⟨?_, areTyped, (name, component), isEntry, (exists_kept_iff
      (succeeds_readComponent.mpr (areTyped name component isComponent))).mpr
        ⟨word, members, isTyped, isKnown⟩⟩
    simpa [NameMap.isEmpty] using List.ne_nil_of_mem isEntry

/-- Requirements are read of an object of requirements. -/
theorem succeeds_readRequires :
    Succeeds (readRequires document) ↔
      Optional document.members "requires" (Value.IsObjectOf IsRequirement) := by
  unfold readRequires Optional
  cases document.members.get? "requires" with
  | none => simp
  | some value =>
      simp only [Option.some.injEq, forall_eq', Value.IsObjectOf, Outcome.succeeds_bind,
        Members.exists_asMembers_iff, Outcome.succeeds_pure, and_true,
        Outcome.exists_eq_ok_iff, succeeds_readEach, NameMap.forall_entries_iff,
        succeeds_readRequirement, IsRequirement]

theorem succeeds_parseSchema {word : String} :
    Succeeds (Version.Schema.parse word) ↔ word ∈ schemaNames := by
  unfold Version.Schema.parse Version.Schema.ofName?
  split
  · rename_i schema isNamed
    split at isNamed <;> simp_all [schemaNames, Succeeds]
  · rename_i isUnknown
    split at isUnknown <;> simp_all [schemaNames]

theorem succeeds_readSchema :
    Succeeds (readSchema document) ↔
      Optional document.members "version_schema" fun value =>
        ∃ name ∈ schemaNames, value = .string name := by
  unfold readSchema
  simp only [Outcome.succeeds_bind, Members.exists_optionalString_iff,
    Outcome.succeeds_mapError, succeeds_parseSchema, Optional]
  cases document.members.get? "version_schema" with
  | none => simp
  | some value => cases value <;> simp

/-- A root is read where it is not given in two ways, and the path of the description
lies below it. -/
theorem succeeds_readRoot {source : Path} :
    Succeeds (readRoot document source) ↔
      Optional document.members "prefix" Value.IsText
        ∧ (Optional document.members "cps_path" fun value =>
            ∃ cpsPath, value = .string cpsPath
              ∧ InstallRoot.IsBelowRoot source.directory cpsPath)
        ∧ (document.members.get? "prefix" = none
            ∨ document.members.get? "cps_path" = none) := by
  unfold readRoot
  simp only [Outcome.succeeds_bind, Members.exists_optionalString_iff, Optional,
    InstallRoot.derive, InstallRoot.succeeds_ofCpsPath, Value.IsText]
  cases document.members.get? "prefix" with
  | none =>
      cases document.members.get? "cps_path" with
      | none => simp [Succeeds]
      | some cpsPath => cases cpsPath <;> simp
  | some stated =>
      cases document.members.get? "cps_path" with
      | none => cases stated <;> simp
      | some cpsPath => simp

/-- What a description must have besides its name and the version of the format. -/
theorem succeeds_readBody
    {source : Path}
    {name : String}
    (isNamed : document.members.get? "name" = some (.string name) ∧ name ≠ "")
    {cpsVersion : String}
    (isVersioned : document.members.get? "cps_version" = some (.string "0.10.0")) :
    Succeeds (readBody document source name cpsVersion) ↔
      IsDocument source.directory document.members := by
  simp only [readBody, Outcome.succeeds_bind, Outcome.succeeds_pure, and_true,
    exists_and_right, Outcome.exists_eq_ok_iff, succeeds_readComponents,
    succeeds_readSchema, succeeds_readRoot, succeeds_readRequires,
    Members.succeeds_optionalString, Members.succeeds_optionalStrings, and_assoc]
  constructor
  · rintro ⟨components, versionSchema, stated, cpsPath, oneRoot, compatVersion, version,
      defaultComponents, requires⟩
    exact { name := ⟨name, isNamed⟩, cpsVersion := isVersioned, components, version,
            compatVersion, versionSchema, defaultComponents, requires, stated, cpsPath,
            oneRoot }
  · intro has
    exact ⟨has.components, has.versionSchema, has.stated, has.cpsPath, has.oneRoot,
      has.compatVersion, has.version, has.defaultComponents, has.requires⟩

/-- Fields are read of what has the schema of a document. -/
theorem succeeds_ofValue
    {value : Value}
    {source : Path} :
    Succeeds (ofValue value source) ↔ IsDescription source.directory value := by
  unfold ofValue IsDescription
  cases value.members? with
  | none => simp
  | some members =>
      simp only [Outcome.succeeds_bind, Outcome.succeeds_unless, Outcome.mapError_eq_ok,
        Outcome.succeeds_mapError, readName_eq_ok, Members.requiredString_eq_ok,
        Decidable.not_not, Option.some.injEq, exists_eq_left']
      constructor
      · rintro ⟨name, isNamed, _, isVersioned, rfl, isBody⟩
        exact (succeeds_readBody isNamed isVersioned).mp isBody
      · intro has
        obtain ⟨name, isNamed⟩ := has.name
        exact ⟨name, isNamed, _, has.cpsVersion, rfl,
          (succeeds_readBody isNamed has.cpsVersion).mpr has⟩

/-- The loader accepts exactly its schema: a value gives a package when it is a
description for the directory of its file, and a text when it is the JSON of one. -/
theorem load_accepts_schema :
    (∀ value source, (∃ package, ofValue value source = .ok package) ↔
      IsDescription source.directory value)
    ∧ ∀ text source, (∃ package, load text source = .ok package) ↔
        ∃ value, Json.parse text = some value
          ∧ IsDescription source.directory value := by
  refine ⟨fun value source => succeeds_ofValue, fun text source => ?_⟩
  unfold load
  cases Json.parse text with
  | none => simp
  | some value =>
      simp only [Option.some.injEq, exists_eq_left']
      exact succeeds_ofValue

/-- The members of a component to link. -/
def archiveMembers : List (String × Value) :=
  [("type", .string "archive"), ("location", .string "@prefix@/libm.a"),
    ("link_flags", .array [.string "-z"])]

/-- That component, and one of a kind that is not read. -/
def componentMembers : List (String × Value) :=
  [("l", .object archiveMembers),
    ("g", .object [("type", .string "group"), ("location", .null)])]

/-- The members of a document with these components. -/
def documentMembers : List (String × Value) :=
  [("name", .string "m"), ("cps_version", .string "0.10.0"),
    ("cps_path", .string "@prefix@/cps"), ("components", .object componentMembers)]

theorem isComponent_archiveMembers :
    IsComponent "archive" (NameMap.ofList archiveMembers) := by
  constructor <;> simp [Optional, Required, NameMap.get?_ofList, archiveMembers,
    List.lookup_cons, Value.IsText, Value.IsTextList]

theorem areComponents_componentMembers : AreComponents (.object componentMembers) := by
  refine ⟨_, rfl, fun name component isComponent => ?_, "l", .object archiveMembers,
    "archive", NameMap.ofList archiveMembers, ?_, ⟨rfl, ?_⟩, by decide⟩
  · simp only [NameMap.get?_ofList, componentMembers, List.reverse_cons, List.reverse_nil,
      List.nil_append, List.cons_append, NameMap.lookup_entry_cons] at isComponent
    split at isComponent
    · cases isComponent
      exact ⟨"group", _, ⟨rfl, by simp [NameMap.get?_ofList, List.lookup_cons]⟩,
        fun isKnown => absurd isKnown (by decide)⟩
    · split at isComponent
      · cases isComponent
        exact ⟨"archive", _,
          ⟨rfl, by simp [NameMap.get?_ofList, archiveMembers, List.lookup_cons]⟩,
          fun _ => isComponent_archiveMembers⟩
      · contradiction
  · simp [NameMap.get?_ofList, componentMembers, List.lookup_cons]
  · simp [NameMap.get?_ofList, archiveMembers, List.lookup_cons]

theorem steps_cpsPath :
    (Path.mk "@prefix@/cps").steps = [.down rootPlaceholder, .down "cps"] := by
  decide +kernel

/-- The document is a description for a directory that ends as it states. -/
theorem isDescription_documentMembers :
    IsDescription ⟨"/m/cps"⟩ (.object documentMembers) := by
  have isBelow : InstallRoot.IsBelowRoot ⟨"/m/cps"⟩ "@prefix@/cps" :=
    ⟨[.down "cps"], steps_cpsPath, by simp, by decide +kernel⟩
  refine ⟨_, rfl, ?_⟩
  constructor <;> simp [Optional, Required, NameMap.get?_ofList, documentMembers,
    List.lookup_cons, areComponents_componentMembers, isBelow]

/-- The document is accepted in a directory that ends as it states, and refused in
another one. -/
theorem load_accepts_schema_ownDirectory :
    IsDescription ⟨"/m/cps"⟩ (.object documentMembers)
      ∧ (∃ package,
          ofValue (.object documentMembers) ⟨"/m/cps/m.cps"⟩ = .ok package)
      ∧ ¬ ∃ package, ofValue (.object documentMembers) ⟨"/m/m.cps"⟩ = .ok package := by
  have notElsewhere : ¬ IsDescription ⟨"/m"⟩ (.object documentMembers) := by
    rintro ⟨_, isObject, has⟩
    cases isObject
    obtain ⟨_, same, below, isBelow, _, isSuffix⟩ := has.cpsPath (.string "@prefix@/cps")
      (by simp [NameMap.get?_ofList, documentMembers, List.lookup_cons])
    cases same
    obtain ⟨_, rfl⟩ := List.cons.inj (steps_cpsPath.symm.trans isBelow)
    exact absurd isSuffix (by decide +kernel)
  obtain ⟨accepts, _⟩ := load_accepts_schema
  refine ⟨isDescription_documentMembers, (accepts _ _).mpr ?_,
    fun isAccepted => notElsewhere ?_⟩
  · exact isDescription_documentMembers
  · exact (accepts _ _).mp isAccepted

end Cps
end Description
end PackageFlags
