import PackageFlags.Description.Loading
import PackageFlags.Proofs.Description.Shapes

/-!
# The names that descriptions require

Whatever format a file is read in, its package requires no other names than those
that are listed for the file tree.
-/

namespace PackageFlags

/-- What is read is the text of a file. -/
theorem FileSystem.mem_texts_of_read
    {files : FileSystem}
    {path : Path}
    {text : String}
    (isRead : files.read path = .ok text) :
    text ∈ files.texts := by
  unfold read entryOf at isRead
  obtain ⟨entry, isEntry, isText⟩ := Outcome.bind_eq_ok.mp isRead
  obtain ⟨location, _, isAt⟩ := Outcome.bind_eq_ok.mp isEntry
  have isThere : files.entryAt location = some entry := by
    cases found : files.entryAt location with
    | none => simp [found] at isAt
    | some other => simpa [found] using isAt
  cases entry with
  | directory => simp at isText
  | «sealed» reason => simp at isText
  | file bytes =>
      have decoded : String.fromUTF8? bytes = some text := by
        cases isDecoded : String.fromUTF8? bytes with
        | none => simp [isDecoded] at isText
        | some other => simpa [isDecoded] using isText
      have isListed : files.entries.lookup location = some (.file bytes) := by
        unfold entryAt at isThere
        split at isThere
        · simp at isThere
        · exact isThere
      obtain ⟨before, after, split, _⟩ := List.lookup_eq_some_iff.mp isListed
      exact List.mem_filterMap.mpr
        ⟨(location, .file bytes), by simp [split], decoded⟩

namespace Description

section Cps

/-- What is read of a map is read from its values under the same names. -/
theorem Cps.mem_readEach
    {α β : Type}
    {read : String -> α -> Except Flaw (Option β)}
    {entries : List (String × α)}
    {results : List (String × β)}
    (isRead : Cps.readEach read entries = .ok results) :
    ∀ result ∈ results, ∃ value, (result.1, value) ∈ entries
      ∧ read result.1 value = .ok (some result.2) := by
  induction entries generalizing results with
  | nil =>
      cases isRead
      simp
  | cons first rest restRead =>
      obtain ⟨name, value⟩ := first
      obtain ⟨result, isFirst, isRest⟩ := Outcome.bind_eq_ok.mp isRead
      have later : ∀ others, Cps.readEach read rest = .ok others →
          ∀ result ∈ others, ∃ other, (result.1, other) ∈ (name, value) :: rest
            ∧ read result.1 other = .ok (some result.2) := by
        intro others isOthers result member
        obtain ⟨other, isEntry, isResult⟩ := restRead isOthers result member
        exact ⟨other, List.mem_cons_of_mem _ isEntry, isResult⟩
      cases result with
      | none => exact later results isRest
      | some given =>
          obtain ⟨others, isOthers, same⟩ := Outcome.bind_eq_ok.mp isRest
          rw [← Outcome.pure_eq_ok.mp same]
          intro result member
          rcases List.mem_cons.mp member with isHead | isLater
          · rw [isHead]
            exact ⟨value, List.mem_cons_self, isFirst⟩
          · exact later others isOthers result isLater

/-- A package of a JSON object requires names under `requires`. -/
theorem Cps.names_readRequires
    {document : Members}
    {requires : NameMap Requirement}
    (isRead : Cps.readRequires document = .ok requires) :
    ∀ name ∈ requires.names, ∃ value members,
      document.members.get? "requires" = some value
        ∧ value.members? = some members ∧ name ∈ members.names := by
  unfold Cps.readRequires at isRead
  cases isGiven : document.members.get? "requires" with
  | none =>
      simp [isGiven, pure, Except.pure] at isRead
      simp [← isRead, NameMap.names, NameMap.empty]
  | some value =>
      simp only [isGiven] at isRead
      obtain ⟨members, isMembers, isRest⟩ := Outcome.bind_eq_ok.mp isRead
      obtain ⟨read, isEach, same⟩ := Outcome.bind_eq_ok.mp isRest
      rw [← Outcome.pure_eq_ok.mp same]
      intro name member
      obtain ⟨entry, isEntry, rfl⟩ := List.mem_map.mp member
      obtain ⟨object, isObject, rfl⟩ := Members.asMembers_eq_ok.mp isMembers
      obtain ⟨given, isGiven, _⟩ := Cps.mem_readEach isEach entry
        (NameMap.mem_of_mem_entries_ofList isEntry)
      exact ⟨value, object, rfl, isObject, List.mem_map_of_mem isGiven⟩

/-- The name of a package is a member that is not empty. -/
theorem Cps.readName_eq_ok
    {document : Members}
    {name : String} :
    Cps.readName document = .ok name ↔
      document.members.get? "name" = some (.string name) ∧ name ≠ "" := by
  unfold Cps.readName
  simp only [Outcome.bind_eq_ok, Members.requiredString_eq_ok]
  constructor
  · rintro ⟨text, isText, isName⟩
    split at isName
    · contradiction
    · rename_i notEmpty
      cases isName
      exact ⟨isText, notEmpty⟩
  · rintro ⟨isText, notEmpty⟩
    exact ⟨name, isText, by rw [if_neg notEmpty]; rfl⟩

/-- What is read of a JSON value that describes a package: it is an object, and the
fields of the package are read from its members. -/
theorem Cps.ofValue_eq_ok
    {value : Json.Value}
    {source : Path}
    {package : Package}
    (isRead : Cps.ofValue value source = .ok package) :
    ∃ members document, value.members? = some members
      ∧ document = { members, place := Members.documentPlace }
      ∧ Cps.readName document = .ok package.name
      ∧ package.cpsVersion = supportedCpsVersion
      ∧ Cps.readComponents document = .ok package.components
      ∧ Cps.readRoot document source = .ok package.root
      ∧ Cps.readRequires document = .ok package.requires := by
  unfold Cps.ofValue at isRead
  cases isObject : value.members? with
  | none =>
      simp only [isObject, Outcome.mapError_eq_ok] at isRead
      contradiction
  | some members =>
      simp only [isObject, Outcome.bind_eq_ok, Outcome.mapError_eq_ok] at isRead
      obtain ⟨name, isName, cpsVersion, _, isRest⟩ := isRead
      split at isRest
      · rw [Outcome.throw_bind] at isRest
        contradiction
      · rename_i isSupported
        have isBody := Outcome.mapError_eq_ok.mp isRest
        unfold Cps.readBody at isBody
        simp only [Outcome.bind_eq_ok, Outcome.pure_eq_ok] at isBody
        obtain ⟨_, areComponents, _, _, _, isRoot, _, _, _, _, _, _, _, areRequired,
          rfl⟩ := isBody
        exact ⟨members, _, rfl, rfl, isName, Decidable.not_not.mp isSupported,
          areComponents, isRoot, areRequired⟩

/-- The package of a JSON text requires the names that are listed for the text. -/
theorem Cps.mem_requiredInCps
    {text : String}
    {source : Path}
    {package : Package}
    (isLoaded : Cps.load text source = .ok package) :
    ∀ name ∈ package.requires.names, name ∈ requiredInCps text := by
  unfold Cps.load at isLoaded
  cases parsed : Json.parse text with
  | none => simp [parsed] at isLoaded
  | some value =>
      simp only [parsed] at isLoaded
      obtain ⟨members, _, isObject, rfl, _, _, _, _, isRequires⟩ :=
        Cps.ofValue_eq_ok isLoaded
      intro name member
      obtain ⟨given, required, isGiven, isRequired, isName⟩ :=
        Cps.names_readRequires isRequires name member
      unfold requiredInCps
      simp only [parsed, Option.bind_some, isObject]
      simp only at isGiven
      simpa only [isGiven, Option.bind_some, isRequired] using isName

end Cps

/-- What a package takes from variables and properties: its name from its file and a
title, its only component and its requirements from the list of required packages,
and its root from a variable or from where it is found. -/
theorem Legacy.ofProperties_eq_ok
    {known : Properties}
    {source : Path}
    {package : Package}
    (isRead : Legacy.ofProperties known source = .ok package) :
    ∃ title entries,
      RequiredPackage.parseList (known.property "Requires") = .ok entries
        ∧ package.name = packageName source title
        ∧ package.cpsVersion = supportedCpsVersion
        ∧ package.components = NameMap.empty.insert package.name
            (component known package.name entries)
        ∧ package.requires = requirements entries
        ∧ package.root = ((known.valueOf? "prefix").map Path.mk).getD
            (InstallRoot.ofDirectory source.directory) := by
  unfold Legacy.ofProperties at isRead
  cases isTitle : known.properties.get? "Name" with
  | none => simp [isTitle, throw, throwThe, MonadExceptOf.throw] at isRead
  | some title =>
      simp only [isTitle] at isRead
      obtain ⟨entries, isEntries, same⟩ := Outcome.bind_eq_ok.mp isRead
      rw [← Outcome.pure_eq_ok.mp same]
      refine ⟨title, entries, isEntries, rfl, rfl, rfl, rfl, ?_⟩
      cases known.valueOf? "prefix" <;> simp

/-- A text gives the package of its variables and properties. -/
theorem Legacy.exists_ofProperties_of_load
    {text : String}
    {source : Path}
    {package : Package}
    (isLoaded : Legacy.load text source = .ok package) :
    ∃ known, Properties.parse text = .ok known
      ∧ Legacy.ofProperties known source = .ok package :=
  Outcome.bind_eq_ok.mp (Outcome.mapError_eq_ok.mp isLoaded)

/-- What a package takes from the text of its file. -/
theorem Legacy.load_eq_ok
    {text : String}
    {source : Path}
    {package : Package}
    (isLoaded : Legacy.load text source = .ok package) :
    ∃ known title entries, Properties.parse text = .ok known
      ∧ RequiredPackage.parseList (known.property "Requires") = .ok entries
      ∧ package.name = packageName source title
      ∧ package.cpsVersion = supportedCpsVersion
      ∧ package.components = NameMap.empty.insert package.name
          (component known package.name entries)
      ∧ package.requires = requirements entries := by
  obtain ⟨known, isKnown, isRead⟩ := exists_ofProperties_of_load isLoaded
  obtain ⟨title, entries, areEntries, isNamed, isSupported, areComponents, areRequired,
    _⟩ := ofProperties_eq_ok isRead
  exact ⟨known, title, entries, isKnown, areEntries, isNamed, isSupported,
    areComponents, areRequired⟩

/-- The package of variables and properties requires the names that are listed
for their text. -/
theorem Legacy.mem_requiredInLegacy
    {text : String}
    {source : Path}
    {package : Package}
    (isLoaded : Legacy.load text source = .ok package) :
    ∀ name ∈ package.requires.names, name ∈ requiredInLegacy text := by
  obtain ⟨known, _, entries, isKnown, isEntries, _, _, _, areRequired⟩ :=
    Legacy.load_eq_ok isLoaded
  rw [areRequired]
  intro name member
  obtain ⟨entry, isEntry, rfl⟩ := List.mem_map.mp member
  obtain ⟨required, isRequired, rfl⟩ := List.mem_map.mp
    (NameMap.mem_of_mem_entries_ofList isEntry)
  unfold requiredInLegacy
  simp only [isKnown, isEntries]
  exact List.mem_map_of_mem isRequired

/-- A package that is read from a file tree requires names that are listed for
it. -/
theorem mem_requiredNames_of_loadFile
    {files : FileSystem}
    {format : Format}
    {path : Path}
    {package : Package}
    (isLoaded : loadFile files format path = .ok package) :
    ∀ name ∈ package.requires.names, name ∈ requiredNames files := by
  unfold loadFile at isLoaded
  cases isRead : files.read path with
  | error reason => simp [isRead] at isLoaded
  | ok text =>
      simp only [isRead] at isLoaded
      intro name member
      refine List.mem_flatMap.mpr ⟨text, FileSystem.mem_texts_of_read isRead, ?_⟩
      cases format with
      | cps =>
          exact List.mem_append_left _ (Cps.mem_requiredInCps isLoaded name member)
      | pkgConfig =>
          exact List.mem_append_right _
            (Legacy.mem_requiredInLegacy isLoaded name member)

end Description
end PackageFlags
