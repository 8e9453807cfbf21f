import PackageFlags.Proofs.Checking
import PackageFlags.Proofs.Description.Required

/-!
# Minimum versions in lists of required packages

Of the entries of a list that have one name, the last decides what is required under
that name. The least version that another of them asks for is enforced exactly if the
last one asks for no less; it is lost if the last one asks for less, or for none.
-/

namespace PackageFlags
namespace Description

/-- An entry asks for a least version. -/
def RequiredPackage.AsksFor
    (entry : RequiredPackage)
    (version : String) : Prop :=
  entry.constraint = some (.greaterOrEqual, version)
    ∨ entry.constraint = some (.equal, version)

namespace Legacy

/-- The entries that a text lists as required. -/
def listed (text : String) : Except Flaw (List RequiredPackage) := do
  RequiredPackage.parseList ((← Properties.parse text).property "Requires")

theorem leastVersion_eq_some_iff
    {entry : RequiredPackage}
    {version : String} :
    leastVersion entry.constraint = some version ↔ entry.AsksFor version := by
  unfold leastVersion RequiredPackage.AsksFor
  split
  · rename_i isConstraint
    simp [isConstraint]
  · rename_i isConstraint
    simp [isConstraint]
  · rename_i notLeast notEqual
    refine ⟨nofun, ?_⟩
    rintro (isLeast | isEqual)
    · exact absurd isLeast (notLeast version)
    · exact absurd isEqual (notEqual version)

/-- The last entry with a name decides what is required under it. -/
theorem get?_requirements
    {earlier later : List RequiredPackage}
    {entry : RequiredPackage}
    (isLast : ∀ other ∈ later, other.name ≠ entry.name) :
    (requirements (earlier ++ entry :: later)).get? entry.name =
      some { version := leastVersion entry.constraint } := by
  have notLater : ((later.map fun other => (other.name,
      ({ version := leastVersion other.constraint } : Requirement))).reverse).lookup
        entry.name = none := by
    rw [List.lookup_eq_none_iff]
    intro other member
    obtain ⟨required, isLater, rfl⟩ := List.mem_map.mp (List.mem_reverse.mp member)
    exact bne_iff_ne.mpr fun same => isLast required isLater same.symm
  unfold requirements
  rw [NameMap.get?_ofList, List.map_append, List.map_cons, List.reverse_append,
    List.reverse_cons, List.append_assoc, List.lookup_append, notLater]
  simp

/-- A list requires the names of its entries. -/
theorem mem_names_requirements
    {entries : List RequiredPackage}
    {name : String} :
    name ∈ (requirements entries).names ↔
      name ∈ entries.map RequiredPackage.name := by
  constructor
  · intro isRequired
    obtain ⟨given, isGiven, rfl⟩ := List.mem_map.mp isRequired
    obtain ⟨entry, isEntry, rfl⟩ :=
      List.mem_map.mp (NameMap.mem_of_mem_entries_ofList isGiven)
    exact List.mem_map_of_mem isEntry
  · intro isListed
    obtain ⟨entry, isEntry, rfl⟩ := List.mem_map.mp isListed
    exact NameMap.mem_names_ofList (List.mem_map_of_mem isEntry)

/-- A package of a version, if it has one. -/
def versioned (version : Option String) : Package where
  name := "foo"
  cpsVersion := supportedCpsVersion
  components := NameMap.empty.insert "foo" { kind := .interface }
  compatVersion := none
  version
  versionSchema := .simple
  defaultComponents := none
  requires := NameMap.empty
  root := ⟨"p"⟩
  source := ⟨"p/foo.cps"⟩

/-- What meets a requirement of a version alone reaches another version exactly if the
requirement asks for no less. -/
theorem reaches_of_check_iff
    {least : Option String}
    {version : String}
    {right : Version.Simple}
    (isRight : Version.parse version = .ok right) :
    (∀ other : Package, other.versionSchema = .simple →
        Requirement.check { version := least } other = .ok () →
        other.Reaches version) ↔
      ∃ greater, least = some greater
        ∧ ∀ left, Version.parse greater = .ok left → left.order right ≠ .lt := by
  constructor
  · intro enforced
    cases least with
    | none =>
        -- a package without a version meets a requirement of none
        obtain ⟨effective, _, _, isEffective, _⟩ := enforced (versioned none) rfl
          ((Requirement.check_eq_ok_iff rfl).mpr ⟨nofun, rfl⟩)
        contradiction
    | some greater =>
        refine ⟨greater, rfl, fun left isLeft => ?_⟩
        -- a package of exactly the version that is asked for meets it
        have reachesOwn : ∀ required, some greater = some required →
            (versioned (some greater)).Reaches required := by
          rintro _ ⟨⟩
          refine ⟨greater, left, left, rfl, isLeft, isLeft, ?_⟩
          rw [Version.Simple.order_self]
          exact nofun
        obtain ⟨effective, own, other, isEffective, isOwn, isOther, notLess⟩ :=
          enforced (versioned (some greater)) rfl
            ((Requirement.check_eq_ok_iff rfl).mpr ⟨reachesOwn, rfl⟩)
        cases isEffective
        cases isLeft.symm.trans isOwn
        cases isRight.symm.trans isOther
        exact notLess
  · rintro ⟨greater, rfl, notLess⟩ other isSimple meets
    have reaches := ((Requirement.check_eq_ok_iff isSimple).mp meets).1 greater rfl
    have isVersion : ∃ left, Version.parse greater = .ok left := by
      obtain ⟨_, _, left, _, _, isLeft, _⟩ := reaches
      exact ⟨left, isLeft⟩
    obtain ⟨left, isLeft⟩ := isVersion
    exact reaches.of_order isLeft isRight (notLess left isLeft)

/-- A package requires what its list says, and of several entries with one name what
the last says. The least version that any of them asks for is enforced exactly if the
last one asks for a version that is no less, or for a text that is none. -/
theorem enforces_iff_last
    {text : String}
    {source : Path}
    {package : Package}
    (isLoaded : load text source = .ok package) :
    ∃ entries, listed text = .ok entries
      ∧ (∀ name, name ∈ package.requires.names ↔
          name ∈ entries.map RequiredPackage.name)
      ∧ ∀ earlier last later, entries = earlier ++ last :: later →
          (∀ other ∈ later, other.name ≠ last.name) →
          ∃ requirement, package.requires.get? last.name = some requirement
            ∧ requirement.components = []
            ∧ (∀ version, requirement.version = some version ↔
                last.AsksFor version)
            ∧ ∀ entry ∈ entries, entry.name = last.name →
                ∀ version right, entry.AsksFor version →
                  Version.parse version = .ok right →
                  ((∀ other : Package, other.versionSchema = .simple →
                      requirement.check other = .ok () →
                      other.Reaches version) ↔
                    ∃ least, last.AsksFor least
                      ∧ ∀ left, Version.parse least = .ok left →
                          left.order right ≠ .lt) := by
  obtain ⟨known, _, entries, isKnown, areEntries, _, _, _, areRequired⟩ :=
    load_eq_ok isLoaded
  refine ⟨entries, Outcome.bind_eq_ok.mpr ⟨known, isKnown, areEntries⟩,
    fun name => areRequired ▸ mem_names_requirements, ?_⟩
  rintro earlier last later rfl isLast
  refine ⟨_, areRequired ▸ get?_requirements isLast, rfl,
    fun version => leastVersion_eq_some_iff, ?_⟩
  intro entry _ _ version right _ isRight
  simp only [reaches_of_check_iff isRight, leastVersion_eq_some_iff]

theorem not_reaches_versioned : ¬(versioned (some "1.0")).Reaches "2.0" := by
  rintro ⟨effective, left, right, isEffective, isLeft, isRight, notOlder⟩
  have isOne : Version.parse "1.0" = .ok ⟨[1, 0], none⟩ :=
    Outcome.eq_ok_of_toOption (by decide)
  have isTwo : Version.parse "2.0" = .ok ⟨[2, 0], none⟩ :=
    Outcome.eq_ok_of_toOption (by decide)
  cases isEffective
  cases isOne.symm.trans isLeft
  cases isTwo.symm.trans isRight
  exact notOlder rfl

/-- A description with two entries under one name, the last of which asks for a least
version. -/
def lowerBoundLast : String :=
  "Name: a\nRequires: foo < 3.0, foo >= 2.0\n"

/-- A package that is older than a description asks for does not meet its
requirement. -/
theorem enforces_iff_last_lowerBoundLast :
    ∃ package requirement, load lowerBoundLast ⟨"p/a.pc"⟩ = .ok package
      ∧ package.requires.get? "foo" = some requirement
      ∧ requirement.check (versioned (some "1.0")) ≠ .ok () := by
  obtain ⟨package, isLoaded⟩ := Outcome.eq_ok_of_isOk
    (by decide +kernel : (load lowerBoundLast ⟨"p/a.pc"⟩).isOk = true)
  have areListed : listed lowerBoundLast = .ok [⟨"foo", some (.less, "3.0")⟩,
      ⟨"foo", some (.greaterOrEqual, "2.0")⟩] :=
    Outcome.eq_ok_of_toOption (by decide +kernel)
  have isVersion : Version.parse "2.0" = .ok ⟨[2, 0], none⟩ :=
    Outcome.eq_ok_of_toOption (by decide)
  obtain ⟨entries, areEntries, _, decides⟩ := enforces_iff_last isLoaded
  cases areListed.symm.trans areEntries
  obtain ⟨requirement, isRequired, _, _, enforces⟩ :=
    decides [⟨"foo", some (.less, "3.0")⟩] _ [] rfl nofun
  have isEnforced := (enforces ⟨"foo", some (.greaterOrEqual, "2.0")⟩ (by simp) rfl
    "2.0" _ (Or.inl rfl) isVersion).mpr
  refine ⟨package, requirement, isLoaded, isRequired, fun meets => ?_⟩
  refine not_reaches_versioned (isEnforced ⟨"2.0", Or.inl rfl, ?_⟩ _ rfl meets)
  intro left isLeft
  cases isVersion.symm.trans isLeft
  exact nofun

/-- A description with the same entries, the first of which asks for a least
version. -/
def lowerBoundFirst : String :=
  "Name: a\nRequires: foo >= 2.0, foo < 3.0\n"

/-- The least version that an entry asks for is lost when a later entry with its name
asks for none. -/
theorem exists_lost_minimum :
    ¬ ∀ (text : String) (source : Path) (package : Package)
        (entries : List RequiredPackage),
      load text source = .ok package → listed text = .ok entries →
      ∀ entry ∈ entries, ∀ version, entry.AsksFor version →
        (∃ simple, Version.parse version = .ok simple) →
        ∀ requirement, package.requires.get? entry.name = some requirement →
          ∀ other : Package, other.versionSchema = .simple →
            requirement.check other = .ok () → other.Reaches version := by
  intro all
  obtain ⟨package, isLoaded⟩ := Outcome.eq_ok_of_isOk
    (by decide +kernel : (load lowerBoundFirst ⟨"p/a.pc"⟩).isOk = true)
  have areListed : listed lowerBoundFirst = .ok [⟨"foo",
      some (.greaterOrEqual, "2.0")⟩, ⟨"foo", some (.less, "3.0")⟩] :=
    Outcome.eq_ok_of_toOption (by decide +kernel)
  have isVersion : Version.parse "2.0" = .ok ⟨[2, 0], none⟩ :=
    Outcome.eq_ok_of_toOption (by decide)
  obtain ⟨known, _, entries, isKnown, areEntries, _, _, _, areRequired⟩ :=
    load_eq_ok isLoaded
  cases areListed.symm.trans (Outcome.bind_eq_ok.mpr ⟨known, isKnown, areEntries⟩)
  have isRequired : package.requires.get? "foo" = some {} := by
    rw [areRequired]
    decide
  exact not_reaches_versioned (all lowerBoundFirst _ package _ isLoaded areListed _
    List.mem_cons_self "2.0" (Or.inl rfl) ⟨_, isVersion⟩ {} isRequired _ rfl rfl)

end Legacy
end Description
end PackageFlags
