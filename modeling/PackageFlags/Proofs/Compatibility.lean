import PackageFlags.Proofs.Checking

/-!
# Asking for less, and offering more

A package that meets a requirement also meets every requirement that asks for no more,
and every package that stands in for it meets the requirement as well. So a package that
was loaded for one request serves all that are no stricter, and an update of it serves
all that it served.
-/

namespace PackageFlags

namespace Version

/-- A version is no greater than another one. -/
def AtMost (less greater : String) : Prop :=
  ∃ left right, parse less = .ok left ∧ parse greater = .ok right
    ∧ (left.order right).isLE = true

/-- A version is not less than those that are no greater. -/
theorem Simple.order_ne_lt_iff {left right : Simple} :
    left.order right ≠ .lt ↔ (right.order left).isLE = true := by
  rw [isLE_order_iff]
  exact (compares_order left right).ne_lt

end Version

namespace Requirement

/-- A requirement asks for no other components than another one, and for no version
unless the other one asks for one that is no less. -/
structure AsksNoMore (weaker stronger : Requirement) : Prop where
  /-- The components are among those of the other. -/
  components : ∀ name ∈ weaker.components, name ∈ stronger.components
  /-- A version is no greater than that of the other. -/
  version : ∀ less, weaker.version = some less →
    ∃ greater, stronger.version = some greater ∧ Version.AtMost less greater

end Requirement

namespace Package

/-- A package stands in for another one when it has at least the same components, and
an effective version that is no less if the other one has one. -/
structure StandsInFor (newer older : Package) : Prop where
  /-- The versions compare in the same way. -/
  schema : newer.versionSchema = older.versionSchema
  /-- No component is gone. -/
  components : ∀ name, older.components.contains name = true →
    newer.components.contains name = true
  /-- A version is followed by one that is no less. -/
  version : ∀ own simple, older.effectiveVersion = some own →
    Version.parse own = .ok simple → newer.Reaches own

variable {package newer : Package}

/-- No component is missing exactly if all are there. -/
theorem missingComponents_eq_nil_iff {wanted : List String} :
    package.missingComponents wanted = [] ↔
      ∀ name ∈ wanted, package.components.contains name = true := by
  simp [missingComponents, List.filter_eq_nil_iff]

/-- What reaches a version reaches all that are no greater. -/
theorem Reaches.of_atMost
    {less greater : String}
    (reaches : package.Reaches greater)
    (atMost : Version.AtMost less greater) :
    package.Reaches less := by
  obtain ⟨left, right, isLeft, isRight, isBelow⟩ := atMost
  exact reaches.of_order isRight isLeft (Version.Simple.order_ne_lt_iff.mpr isBelow)

/-- What stands in for a package reaches what that one reaches. -/
theorem StandsInFor.reaches
    (standsIn : newer.StandsInFor package)
    {version : String}
    (reaches : package.Reaches version) :
    newer.Reaches version := by
  obtain ⟨own, left, right, isOwn, isLeft, isRight, notLess⟩ := reaches
  have reachesOwn := standsIn.version own left isOwn isLeft
  exact reachesOwn.of_order isLeft isRight notLess

end Package

namespace Requirement

variable {requirement : Requirement} {package : Package}

/-- A version is accepted for another requirement, of another package with the same
schema, if that one reaches what is required there once this one does. -/
theorem checkVersion_of_reaches
    {other : Requirement}
    {newer : Package}
    (isAccepted : requirement.checkVersion package = .ok ())
    (sameSchema : newer.versionSchema = package.versionSchema)
    (reaches : ∀ version, other.version = some version →
      ∃ required, requirement.version = some required
        ∧ (package.Reaches required → newer.Reaches version)) :
    other.checkVersion newer = .ok () := by
  cases isAsked : other.version with
  | none => simp [checkVersion, isAsked]
  | some version =>
      -- a version that was accepted is one of the simple schema
      obtain ⟨required, isRequired, _⟩ := reaches version isAsked
      have isSimple := isSimple_of_checkVersion isAccepted isRequired
      have reachesAll := (checkVersion_eq_ok_iff isSimple).mp isAccepted
      refine (checkVersion_eq_ok_iff (sameSchema.trans isSimple)).mpr ?_
      intro asked isOther
      obtain ⟨least, isLeast, reachesAsked⟩ := reaches asked isOther
      exact reachesAsked (reachesAll least isLeast)

/-- Whatever meets a requirement meets all that ask for no more, and whatever stands in
for it meets the requirement. -/
theorem check_monotone (meets : requirement.check package = .ok ()) :
    (∀ weaker : Requirement, weaker.AsksNoMore requirement →
        weaker.check package = .ok ())
      ∧ ∀ newer : Package, newer.StandsInFor package →
        requirement.check newer = .ok () := by
  obtain ⟨isAccepted, noneMissing⟩ := check_eq_ok.mp meets
  rw [Package.missingComponents_eq_nil_iff] at noneMissing
  constructor
  · intro weaker asksNoMore
    refine check_eq_ok.mpr ⟨checkVersion_of_reaches isAccepted rfl ?_, ?_⟩
    · intro less isAsked
      obtain ⟨greater, isRequired, atMost⟩ := asksNoMore.version less isAsked
      exact ⟨greater, isRequired, fun reaches => reaches.of_atMost atMost⟩
    · rw [Package.missingComponents_eq_nil_iff]
      exact fun name isAsked => noneMissing name (asksNoMore.components name isAsked)
  · intro newer standsIn
    refine check_eq_ok.mpr ⟨checkVersion_of_reaches isAccepted standsIn.schema ?_, ?_⟩
    · exact fun version isAsked => ⟨version, isAsked, standsIn.reaches⟩
    · rw [Package.missingComponents_eq_nil_iff]
      exact fun name isAsked => standsIn.components name (noneMissing name isAsked)

/-- A package that can stand in for its versions from some version on. -/
def compatibleFrom (oldest : String) (components : List String) : Package where
  name := "zlib"
  cpsVersion := supportedCpsVersion
  components := NameMap.ofList
    (components.map fun name => (name, { kind := .interface }))
  compatVersion := some oldest
  version := some "9"
  versionSchema := .simple
  defaultComponents := none
  requires := NameMap.empty
  root := ⟨"p"⟩
  source := ⟨"p/zlib.cps"⟩

/-- A requirement of two components and a version with a suffix is weakened in both, and
the package is replaced by one with more components and a greater suffix. -/
theorem check_monotone_compatibleFrom :
    let requirement : Requirement :=
      { components := ["z", "minizip"], version := some "1.5-2" }
    requirement.check (compatibleFrom "1.5.0+2" ["minizip", "z"]) = .ok ()
      ∧ Requirement.check { components := ["z"], version := some "1.5" }
          (compatibleFrom "1.5.0+2" ["minizip", "z"]) = .ok ()
      ∧ requirement.check (compatibleFrom "1.5-10" ["contrib", "minizip", "z"]) =
          .ok () := by
  have isOlder : Version.parse "1.5" = .ok ⟨[1, 5], none⟩ :=
    Outcome.eq_ok_of_toOption (by decide +kernel)
  have isAsked : Version.parse "1.5-2" = .ok ⟨[1, 5], some [2]⟩ :=
    Outcome.eq_ok_of_toOption (by decide +kernel)
  have isOwn : Version.parse "1.5.0+2" = .ok ⟨[1, 5, 0], some [2]⟩ :=
    Outcome.eq_ok_of_toOption (by decide +kernel)
  have isNewer : Version.parse "1.5-10" = .ok ⟨[1, 5], some [10]⟩ :=
    Outcome.eq_ok_of_toOption (by decide +kernel)
  have meets : Requirement.check
      { components := ["z", "minizip"], version := some "1.5-2" }
      (compatibleFrom "1.5.0+2" ["minizip", "z"]) = .ok () :=
    Outcome.eq_ok_of_toOption (by decide +kernel)
  obtain ⟨weakened, replaced⟩ := check_monotone meets
  refine ⟨meets, weakened _ ⟨by simp, ?_⟩, replaced _ ⟨rfl, ?_, ?_⟩⟩
  · rintro _ ⟨⟩
    exact ⟨"1.5-2", rfl, _, _, isOlder, isAsked, by decide⟩
  · intro name isThere
    have isNamed : name = "minizip" ∨ name = "z" := by
      simpa [compatibleFrom, NameMap.contains, NameMap.get?_ofList,
        List.lookup_isSome_iff, or_comm] using isThere
    rcases isNamed with rfl | rfl <;> decide
  · rintro _ simple ⟨⟩ isSimple
    exact ⟨"1.5-10", _, _, rfl, isNewer, isOwn, by decide⟩

end Requirement
end PackageFlags
