import PackageFlags.Proofs.Description.Required
import PackageFlags.Proofs.FileNames

/-!
# Well-formed packages

Every description that can be read gives a package that later steps can rely on: it
has a name and the version of the format, and at least one component, all of them of
known kinds and with a location unless they are interfaces.
-/

namespace PackageFlags

/-- What holds of every component that is read from a description. -/
structure Component.WellFormed (component : Component) : Prop where
  /-- The schema knows the kind. -/
  known : component.kind.isKnown = true
  /-- An artifact has a location. -/
  located : component.kind ≠ .interface →
    ∃ location, component.location = some location

/-- What holds of every package that is read from a description. -/
structure Package.WellFormed (package : Package) : Prop where
  /-- The name is not empty. -/
  named : package.name ≠ ""
  /-- The version of the format is the one that is read. -/
  supported : package.cpsVersion = supportedCpsVersion
  /-- There is a component. -/
  inhabited : package.components.names ≠ []
  /-- The components are well-formed. -/
  components : ∀ name component,
    package.components.get? name = some component → component.WellFormed

namespace Description

namespace Cps

/-- A component is read with the kind that it is said to be of, and an artifact only
with a location. -/
theorem wellFormed_of_readKnownComponent
    {name : String}
    {kind : ComponentKind}
    {fields : Members}
    {component : Component}
    (isKnown : kind.isKnown = true)
    (isRead : readKnownComponent name kind fields = .ok component) :
    component.WellFormed := by
  unfold readKnownComponent at isRead
  obtain ⟨location, _, isRest⟩ := Outcome.bind_eq_ok.mp isRead
  split at isRest
  · rw [Outcome.throw_bind] at isRest
    contradiction
  · rename_i notMissing
    simp only [Outcome.bind_eq_ok, Outcome.pure_eq_ok] at isRest
    obtain ⟨_, _, _, _, _, _, _, _, _, _, _, _, _, _, _, _, _, _, rfl⟩ := isRest
    refine ⟨isKnown, fun notInterface => Option.ne_none_iff_exists'.mp ?_⟩
    exact fun isMissing => notMissing ⟨notInterface, isMissing⟩

theorem wellFormed_of_readComponent
    {name : String}
    {fields : Members}
    {component : Component}
    (isRead : readComponent name fields = .ok (some component)) :
    component.WellFormed := by
  obtain ⟨word, _, isRest⟩ := Outcome.bind_eq_ok.mp isRead
  dsimp only at isRest
  split at isRest
  · rename_i isKnown
    obtain ⟨known, isComponent, same⟩ := Outcome.bind_eq_ok.mp isRest
    have sameComponent : known = component :=
      Option.some.inj (Outcome.pure_eq_ok.mp same)
    exact wellFormed_of_readKnownComponent isKnown (sameComponent ▸ isComponent)
  · have isNone := Outcome.pure_eq_ok.mp isRest
    contradiction

/-- The components that are read are well-formed, and there is one. -/
theorem wellFormed_of_readComponents
    {document : Members}
    {components : NameMap Component}
    (isRead : readComponents document = .ok components) :
    components.names ≠ []
      ∧ ∀ name component, components.get? name = some component →
          component.WellFormed := by
  unfold readComponents at isRead
  obtain ⟨value, _, isRest⟩ := Outcome.bind_eq_ok.mp isRead
  obtain ⟨members, _, isRest⟩ := Outcome.bind_eq_ok.mp isRest
  split at isRest
  · rw [Outcome.throw_bind] at isRest
    contradiction
  · obtain ⟨known, areRead, isRest⟩ := Outcome.bind_eq_ok.mp isRest
    split at isRest
    · rw [Outcome.throw_bind] at isRest
      contradiction
    · rename_i isSome
      have same := Outcome.pure_eq_ok.mp isRest
      subst same
      constructor
      · intro noNames
        cases known with
        | nil => exact isSome rfl
        | cons first rest =>
            have isName := NameMap.mem_names_ofList
              (List.mem_cons_self : first ∈ first :: rest)
            simp [noNames] at isName
      · intro name component isComponent
        obtain ⟨value, _, isValue⟩ := mem_readEach areRead _
          (NameMap.mem_of_mem_entries_ofList
            (NameMap.mem_entries_of_get? isComponent))
        obtain ⟨fields, _, isResult⟩ := Outcome.bind_eq_ok.mp isValue
        exact wellFormed_of_readComponent isResult

/-- The package of a JSON value is well-formed. -/
theorem wellFormed_of_ofValue
    {value : Json.Value}
    {source : Path}
    {package : Package}
    (isRead : ofValue value source = .ok package) :
    package.WellFormed := by
  obtain ⟨_, _, _, _, isName, isSupported, areComponents, _, _⟩ := ofValue_eq_ok isRead
  obtain ⟨isSome, areWellFormed⟩ := wellFormed_of_readComponents areComponents
  exact ⟨(readName_eq_ok.mp isName).2, isSupported, isSome, areWellFormed⟩

end Cps

namespace Legacy

/-- A package has a name if its file does. -/
theorem packageName_ne_empty
    {source : Path}
    {stem : String}
    (isName : stem ≠ "")
    (isStem : source.fileStem? = some stem)
    (title : String) :
    packageName source title ≠ "" := by
  simpa only [packageName, isStem, if_neg isName] using isName

theorem wellFormed_component
    (known : Properties)
    (name : String)
    (entries : List RequiredPackage) :
    (component known name entries).WellFormed :=
  ⟨rfl, fun notInterface => absurd rfl notInterface⟩

/-- The package of variables and properties is well-formed if its file has a
name. -/
theorem wellFormed_of_load
    {text : String}
    {source : Path}
    {package : Package}
    {stem : String}
    (isName : stem ≠ "")
    (isStem : source.fileStem? = some stem)
    (isLoaded : load text source = .ok package) :
    package.WellFormed := by
  obtain ⟨known, title, entries, _, _, isNamed, isSupported, areComponents, _⟩ :=
    load_eq_ok isLoaded
  refine ⟨isNamed ▸ packageName_ne_empty isName isStem title, isSupported, ?_, ?_⟩
  · rw [areComponents]
    exact List.cons_ne_nil _ _
  · intro name given isComponent
    rw [areComponents, NameMap.get?_insert] at isComponent
    split at isComponent
    · rw [← Option.some.inj isComponent]
      exact wellFormed_component known _ entries
    · contradiction

end Legacy

/-- The package of a file is well-formed. -/
theorem wellFormed_of_loadFile
    {files : FileSystem}
    {format : Format}
    {path : Path}
    {package : Package}
    (isLoaded : loadFile files format path = .ok package) :
    package.WellFormed := by
  unfold loadFile at isLoaded
  cases isRead : files.read path with
  | error reason => simp [isRead] at isLoaded
  | ok text =>
      simp only [isRead] at isLoaded
      cases format with
      | cps =>
          change Cps.load text path = .ok package at isLoaded
          unfold Cps.load at isLoaded
          split at isLoaded
          · contradiction
          · exact Cps.wellFormed_of_ofValue isLoaded
      | pkgConfig =>
          obtain ⟨stem, isName, isStem⟩ := FileSystem.exists_fileStem?_of_read isRead
          exact Legacy.wellFormed_of_load isName isStem isLoaded

end Description
end PackageFlags
