import Mathlib.Data.Set.Card
import PackageFlags.Proofs.Registry.Arising
import PackageFlags.Proofs.Registry.Causes

/-!
# Requests inside requests

To build a name that is not in the registry, the names are requested that the package
of a candidate requires, once the package is entered. Inside these requests the name
is found, so the names that are searched for on the way down are all different, and
all but the first of them are required by descriptions. Requests are therefore nested
to a limited depth, and the recursion over them ends without any limit being set.
-/

namespace PackageFlags

/-- Whether a name is required by a description that can be loaded: by that of a
candidate for some name. -/
def World.Requires (world : World) (name : String) : Prop :=
  ∃ other candidates candidate package,
    world.search.candidates world.files other = .ok candidates
      ∧ candidate ∈ candidates
      ∧ Description.loadFile world.files candidate.format candidate.path =
          .ok package
      ∧ name ∈ package.requires.names

/-- Only finitely many names are required. -/
theorem World.finite_requires (world : World) :
    {name | world.Requires name}.Finite := by
  refine (List.finite_toSet (Description.requiredNames world.files)).subset ?_
  rintro name ⟨_, _, _, _, _, _, isLoaded, isRequired⟩
  exact Description.mem_requiredNames_of_loadFile isLoaded name isRequired

namespace Registry

/-- A request for the node of a name. -/
structure Request where
  /-- The registry when the request is made. -/
  registry : Registry
  /-- The name. -/
  name : String
  /-- What is required of the package. -/
  requirement : Requirement

/-- The name of a request is not in the registry, so that its files are searched
for. -/
def Request.Searches (request : Request) : Prop :=
  request.registry.find? request.name = none

/-- A request is made for another one: the candidates of the outer name that were
tried have failed, the next one is loaded and entered, and those of its requirements
that come first are built. -/
inductive Nested (world : World) (outer : Request) : Request -> Prop
  | intro
      {tried untried : List Candidate}
      {candidate : Candidate}
      {failures : List Failure}
      {package : Package}
      {earlier later : List (String × Requirement)}
      {dependency : String}
      {required : Requirement}
      {middle after : Registry}
      {children : List (String × NodeId)}
      (searches : outer.Searches)
      (areCandidates : world.search.candidates world.files outer.name =
        .ok (tried ++ candidate :: untried))
      (haveFailed : tryCandidates world (build world) outer.registry outer.name
        outer.requirement tried = (middle, .error failures))
      (isLoaded : loadCandidate world outer.requirement candidate = .ok package)
      (isSplit : package.requires.entries =
        earlier ++ (dependency, required) :: later)
      (areBuilt : buildRequired (build world) (middle.enter outer.name package)
        earlier = (after, .ok children)) :
      Nested world outer ⟨after, dependency, required⟩

variable {world : World} {outer inner : Request}

namespace Nested

/-- Requests arise inside requests that arise. -/
theorem arises
    (nested : Nested world outer inner)
    (outerArises : Arises world outer.registry) :
    Arises world inner.registry := by
  obtain ⟨searches, areCandidates, haveFailed, isLoaded, isSplit, areBuilt⟩ := nested
  have trying := Trying.mk searches
    ⟨_, _, _, _, _, areCandidates, haveFailed, isLoaded⟩
  exact .entered outerArises trying isSplit areBuilt

/-- A request inside another one finds the name of the outer one, with all that was
in the registry before, and its own name is required. -/
theorem grows
    (nested : Nested world outer inner)
    (consistent : outer.registry.Consistent) :
    outer.registry.journal ⊆ inner.registry.journal
      ∧ outer.name ∈ inner.registry.journal
      ∧ world.Requires inner.name := by
  obtain ⟨searches, areCandidates, haveFailed, isLoaded, isSplit, areBuilt⟩ := nested
  have sound := build_sound world
  rw [sound.tryCandidates_error consistent searches haveFailed] at areBuilt
  have listed := (sound.foundAll (consistent.enter searches _)
    areBuilt).grows.journal.subset
  rw [journal_enter] at listed
  refine ⟨fun name isListed => listed (List.mem_append_left _ isListed),
    listed (List.mem_append_right _ (List.mem_singleton_self _)), outer.name, _, _, _,
    areCandidates, List.mem_append_right _ List.mem_cons_self,
    (loadCandidate_eq_ok isLoaded).1, ?_⟩
  simp [NameMap.names, isSplit]

end Nested

/-! ## Chains of requests -/

section Chains

variable {rest : List Request}

/-- All requests of a chain arise, find the name of the first, and are for names that
are required. -/
theorem of_mem_chain
    (isChain : (outer :: rest).IsChain (Nested world))
    (arises : Arises world outer.registry) :
    ∀ inner ∈ rest, Arises world inner.registry
      ∧ outer.registry.journal ⊆ inner.registry.journal
      ∧ outer.name ∈ inner.registry.journal
      ∧ world.Requires inner.name := by
  induction rest generalizing outer with
  | nil => exact fun _ isInner => absurd isInner List.not_mem_nil
  | cons next others othersOf =>
      obtain ⟨nested, isRest⟩ := List.isChain_cons_cons.mp isChain
      have nextArises := nested.arises arises
      obtain ⟨keeps, isListed, isRequired⟩ := nested.grows arises.consistent
      refine List.forall_mem_cons.mpr
        ⟨⟨nextArises, keeps, isListed, isRequired⟩, fun inner isInner => ?_⟩
      obtain ⟨innerArises, keepsMore, _, innerRequired⟩ :=
        othersOf isRest nextArises inner isInner
      exact ⟨innerArises, List.Subset.trans keeps keepsMore, keepsMore isListed, innerRequired⟩

/-- Requests of a chain that search for their names are for different names. -/
theorem nodup_names_of_chain
    (isChain : (outer :: rest).IsChain (Nested world))
    (arises : Arises world outer.registry)
    (search : ∀ request ∈ outer :: rest, request.Searches) :
    ((outer :: rest).map Request.name).Nodup := by
  induction rest generalizing outer with
  | nil => exact List.nodup_singleton outer.name
  | cons next others othersNodup =>
      have restSearch := (List.forall_mem_cons.mp search).2
      rw [List.map_cons, List.nodup_cons]
      constructor
      · intro isRepeated
        obtain ⟨inner, isInner, same⟩ := List.mem_map.mp isRepeated
        obtain ⟨innerArises, _, isListed, _⟩ :=
          of_mem_chain isChain arises inner isInner
        exact innerArises.consistent.ne_of_mem_journal (restSearch inner isInner)
          isListed same.symm
      · obtain ⟨nested, isRest⟩ := List.isChain_cons_cons.mp isChain
        exact othersNodup isRest (nested.arises arises) restSearch

/-- Below the first request of a chain there are at most as many that search for
their names as names are required. -/
theorem length_le_of_chain
    (isChain : (outer :: rest).IsChain (Nested world))
    (arises : Arises world outer.registry)
    (search : ∀ request ∈ outer :: rest, request.Searches) :
    rest.length ≤ {name | world.Requires name}.ncard := by
  have namesNodup : (rest.map Request.name).Nodup :=
    (List.nodup_cons.mp (nodup_names_of_chain isChain arises search)).2
  have areRequired :
      ((rest.map Request.name).toFinset : Set String) ⊆
        {name | world.Requires name} := by
    intro name isName
    rw [List.coe_toFinset] at isName
    obtain ⟨inner, isInner, rfl⟩ := List.mem_map.mp isName
    exact (of_mem_chain isChain arises inner isInner).2.2.2
  calc rest.length
      = (rest.map Request.name).toFinset.card := by
        rw [List.toFinset_card_of_nodup namesNodup, List.length_map]
    _ = ((rest.map Request.name).toFinset : Set String).ncard :=
        (Set.ncard_coe_finset _).symm
    _ ≤ {name | world.Requires name}.ncard :=
        Set.ncard_le_ncard areRequired world.finite_requires

/-- Requests for which others are made search for their names. -/
theorem searches_of_chain
    {last : Request}
    (isChain : (rest ++ [last]).IsChain (Nested world)) :
    ∀ request ∈ rest, request.Searches := by
  intro request isRequest
  obtain ⟨above, below, rfl⟩ := List.append_of_mem isRequest
  rw [List.append_assoc, List.cons_append] at isChain
  have isBelow := (List.isChain_append.mp isChain).2.1
  cases below with
  | nil =>
      obtain ⟨searches⟩ := (List.isChain_cons_cons.mp isBelow).1
      exact searches
  | cons next others =>
      obtain ⟨searches⟩ := (List.isChain_cons_cons.mp isBelow).1
      exact searches

/-- No chain of requests is longer than the number of required names by more than
two. -/
theorem length_le_succ_of_chain
    (isChain : (outer :: rest).IsChain (Nested world))
    (arises : Arises world outer.registry) :
    rest.length ≤ {name | world.Requires name}.ncard + 1 := by
  cases rest using List.reverseRecOn with
  | nil => exact Nat.zero_le _
  | append_singleton init last =>
      have isInit : (outer :: init).IsChain (Nested world) :=
        (List.isChain_append.mp
          (show ((outer :: init) ++ [last]).IsChain _ from isChain)).1
      have isShort := length_le_of_chain isInit arises (searches_of_chain isChain)
      rw [List.length_append, List.length_singleton]
      omega

end Chains

/-! ## The recursion without a limit -/

/-- Where chains have a limited length, there are no endless ones. -/
theorem acc_of_length_le
    {α : Type}
    {leads : α -> α -> Prop}
    {limit : Nat}
    {first : α}
    (isLimited : ∀ rest, (first :: rest).IsChain leads → rest.length ≤ limit) :
    Acc (fun inner outer => leads outer inner) first := by
  induction limit generalizing first with
  | zero =>
      refine ⟨first, fun next isNext => ?_⟩
      have isShort := isLimited [next]
        (List.isChain_cons_cons.mpr ⟨isNext, List.isChain_singleton next⟩)
      exact absurd isShort (Nat.not_succ_le_zero 0)
  | succ limit nextAcc =>
      refine ⟨first, fun next isNext => nextAcc fun rest isRest => ?_⟩
      exact Nat.le_of_succ_le_succ
        (isLimited (next :: rest) (List.isChain_cons_cons.mpr ⟨isNext, isRest⟩))

/-- Building a name depends on the requests alone that are made for it. -/
theorem findOrLoad_eq_of_nested
    {builder : Builder}
    (agree : ∀ inner, Nested world outer inner →
      build world inner.registry inner.name inner.requirement =
        builder inner.registry inner.name inner.requirement) :
    findOrLoad world (build world) outer.registry outer.name outer.requirement =
      findOrLoad world builder outer.registry outer.name outer.requirement := by
  unfold findOrLoad
  cases isCached : outer.registry.find? outer.name with
  | some id => rfl
  | none =>
      unfold loadName
      cases areCandidates : world.search.candidates world.files outer.name with
      | error failure => rfl
      | ok candidates =>
          have triesSame : tryCandidates world (build world) outer.registry outer.name
              outer.requirement candidates = tryCandidates world builder outer.registry
                outer.name outer.requirement candidates := by
            refine tryCandidates_congr fun tried candidate untried middle failures
              areTried haveFailed => ?_
            refine tryCandidate_congr fun package isLoaded => ?_
            refine addPackage_congr fun earlier dependency required later after
              children isSplit areBuilt => ?_
            exact agree ⟨after, dependency, required⟩ (.intro isCached
              (areTried ▸ areCandidates) haveFailed isLoaded isSplit areBuilt)
          simp only [triesSame]

/-- Building a name in a registry that arises comes to an end: what it comes to is the
only solution of the recursion without a limit, and no failure is due to one. Requests
that are made for one another and search for their names do so for different names.
So these are at most one more than the names that descriptions require, and only one
more request can be made, which finds its name. -/
theorem build_ends
    {request : Request}
    (arises : Arises world request.registry) :
    build world request.registry request.name request.requirement =
        findOrLoad world (build world) request.registry request.name
          request.requirement
      ∧ (∀ builder : Builder,
          (∀ registry, Arises world registry → ∀ name requirement,
            builder registry name requirement =
              findOrLoad world builder registry name requirement) →
          builder request.registry request.name request.requirement =
            build world request.registry request.name request.requirement)
      ∧ (∀ after failure part,
          build world request.registry request.name request.requirement =
            (after, .error failure) →
          failure.Contains part → ∀ name, part ≠ .nestedTooDeeply name)
      ∧ {name | world.Requires name}.Finite
      ∧ ∀ rest : List Request, (request :: rest).IsChain (Nested world) →
          rest.length ≤ {name | world.Requires name}.ncard + 1
            ∧ ((∀ other ∈ request :: rest, other.Searches) →
                ((request :: rest).map Request.name).Nodup
                  ∧ (request :: rest).length ≤
                      {name | world.Requires name}.ncard + 1) := by
  refine ⟨build_eq_findOrLoad arises.consistent _ _, ?_, ?_,
    world.finite_requires, ?_⟩
  · intro builder solves
    have isAcc : Acc (fun inner outer => Nested world outer inner) request :=
      acc_of_length_le fun rest isChain => length_le_succ_of_chain isChain arises
    -- the induction is on the requests that are made for a request
    induction isAcc with
    | intro request _ innerSame =>
        rw [build_eq_findOrLoad arises.consistent, solves request.registry arises]
        refine (findOrLoad_eq_of_nested fun inner nested => ?_).symm
        exact (innerSame inner nested (nested.arises arises)).symm
  · rintro after failure part failed contains name rfl
    have isOf := (ofBuilding_of_build arises.consistent failed).part contains
    cases isOf with
    | description isOf => simp [Failure.isOfDescription] at isOf
  · intro rest isChain
    refine ⟨length_le_succ_of_chain isChain arises, fun search => ⟨?_, ?_⟩⟩
    · exact nodup_names_of_chain isChain arises search
    · exact Nat.succ_le_succ (length_le_of_chain isChain arises search)

/-- The first package of a cycle is built by way of the second, and the two names are
within the limit on the depth. -/
theorem build_ends_cycleStart :
    ∃ inner : Request, inner.name = "b.cps" ∧ inner.Searches
      ∧ Nested unfinishedCycle ⟨empty, "a.cps", {}⟩ inner
      ∧ 2 ≤ {other | unfinishedCycle.Requires other}.ncard + 1 := by
  have areCandidates : unfinishedCycle.search.candidates unfinishedCycle.files
      "a.cps" = .ok ([] ++ cycleStartFile :: []) :=
    candidates_cycleStart
  have isSplit : cycleStart.requires.entries =
      [] ++ ("b.cps", ({} : Requirement)) :: [] := rfl
  have isBuilt : buildRequired (build unfinishedCycle)
      (empty.enter "a.cps" cycleStart) [] =
        (empty.enter "a.cps" cycleStart, .ok []) := rfl
  have nested : Nested unfinishedCycle ⟨empty, "a.cps", {}⟩
      ⟨empty.enter "a.cps" cycleStart, "b.cps", {}⟩ :=
    .intro rfl areCandidates rfl loadCandidate_cycleStart isSplit isBuilt
  have searches : Request.Searches ⟨empty.enter "a.cps" cycleStart, "b.cps", {}⟩ := by
    unfold Request.Searches
    decide
  refine ⟨_, rfl, searches, nested, ?_⟩
  have arises : Arises unfinishedCycle (Request.mk empty "a.cps" {}).registry :=
    .between []
  have isChain := List.isChain_cons_cons.mpr ⟨nested, List.isChain_singleton _⟩
  refine (((build_ends arises).2.2.2.2 [_] isChain).2 ?_).2
  exact List.forall_mem_cons.mpr ⟨rfl, List.forall_mem_singleton.mpr searches⟩

end Registry
end PackageFlags
