import PackageFlags.Proofs.Graph.Beside
import PackageFlags.Proofs.Registry.Sessions
import PackageFlags.Proofs.Registry.Trials

/-!
# Independent queries

The names that come up when one is asked for are found from the files alone. As long
as none of them is in the registry, everything that is loaded for a query is put
beside what is there, in the same way as in a registry without packages. So the query
gets the answer that it would get on its own.
-/

namespace PackageFlags

namespace World

/-- What the candidates of a name require, as far as they can be read. -/
def requiredFor (world : World) (name : String) : List String :=
  match world.search.candidates world.files name with
  | .error _ => []
  | .ok candidates =>
      candidates.flatMap fun candidate =>
        match Description.loadFile world.files candidate.format candidate.path with
        | .error _ => []
        | .ok package => package.requires.names

/-- The names that come up when one is asked for: the name itself, and with each name
what its candidates require. -/
def Concerns (world : World) : String -> String -> Prop :=
  Relation.ReflTransGen fun name dependency => dependency ∈ world.requiredFor name

theorem mem_requiredFor
    {world : World}
    {name : String}
    {candidates : List Candidate}
    (areCandidates : world.search.candidates world.files name = .ok candidates)
    {candidate : Candidate}
    (isCandidate : candidate ∈ candidates)
    {package : Package}
    (isRead : Description.loadFile world.files candidate.format candidate.path =
      .ok package)
    {dependency : String}
    (isRequired : dependency ∈ package.requires.names) :
    dependency ∈ world.requiredFor name := by
  unfold requiredFor
  rw [areCandidates]
  refine List.mem_flatMap.mpr ⟨candidate, isCandidate, ?_⟩
  rw [isRead]
  exact isRequired

end World

namespace Registry

/-- A registry consists of one that was there and of what was loaded beside it, under
names that were not there. -/
structure Joins (base own joined : Registry) : Prop where
  graph : base.graph.Beside own.graph joined.graph
  journal : joined.journal = base.journal ++ own.journal
  cache : ∀ name, joined.find? name =
    ((own.find? name).map base.graph.behind).or (base.find? name)
  apart : ∀ name id, own.find? name = some id → base.find? name = none
  consistent : Consistent own

namespace Joins

variable {base own joined : Registry}

/-- Nothing has been loaded yet. -/
theorem start (base : Registry) : Joins base empty base where
  graph := Graph.Beside.start base.graph
  journal := (List.append_nil _).symm
  cache := fun name => by simp [empty, find?]
  apart := fun name id isCached => by simp [empty, find?] at isCached
  consistent := Consistent.empty

/-- Names that were not there are looked up in what was loaded. -/
theorem find?_eq
    (joins : Joins base own joined)
    {name : String}
    (isApart : base.find? name = none) :
    joined.find? name = (own.find? name).map base.graph.behind := by
  rw [joins.cache, isApart, Option.or_none]

/-- A package is entered beside the registry. -/
theorem enter
    (joins : Joins base own joined)
    {name : String}
    (isNew : own.find? name = none)
    (isApart : base.find? name = none)
    (package : Package) :
    Joins base (own.enter name package) (joined.enter name package) where
  graph := joins.graph.add package
  journal := by
    rw [journal_enter, journal_enter, joins.journal, List.append_assoc]
  cache := by
    intro other
    rw [find?_enter, find?_enter]
    split
    · rw [joins.graph.fresh]
      rfl
    · exact joins.cache other
  apart := by
    intro other id isCached
    rw [find?_enter] at isCached
    split at isCached
    · rename_i same
      exact same ▸ isApart
    · exact joins.apart other id isCached
  consistent := joins.consistent.enter isNew package

/-- A node is connected beside the registry. -/
theorem connect
    (joins : Joins base own joined)
    (source : NodeId)
    (children : List (String × NodeId)) :
    Joins base (own.connect source children)
      (joined.connect (base.graph.behind source)
        (children.map (Prod.map id base.graph.behind))) where
  graph := by
    have beside := joins.graph
    unfold Registry.connect
    generalize own.graph = ownGraph at beside
    generalize joined.graph = joinedGraph at beside
    induction children generalizing ownGraph joinedGraph with
    | nil => exact beside
    | cons first rest restBeside =>
        exact restBeside _ _ (beside.connect ⟨source, first.1, first.2⟩)
  journal := joins.journal
  cache := joins.cache
  apart := joins.apart
  consistent := joins.consistent.connect source children

/-- A node that was loaded is used again as if nothing had been there. -/
theorem reuse_eq
    (joins : Joins base own joined)
    {name : String}
    {id : NodeId}
    (isCached : own.find? name = some id)
    (requirement : Requirement) :
    joined.reuse (base.graph.behind id) requirement =
      (own.reuse id requirement).map base.graph.behind := by
  have isNode : id ∈ own.graph.nodes :=
    joins.consistent.mem_nodes_iff.mpr ⟨name, isCached⟩
  obtain ⟨package, isPackage⟩ := Graph.mem_nodes_iff.mp isNode
  unfold reuse
  rw [joins.graph.embeds.package? id trivial, isPackage]
  cases isChecked : requirement.check package <;> simp [isChecked, Except.map]

end Joins

/-! ## Trials beside a registry -/

/-- Registries with a node come to the same but for what was there. -/
def Corresponds (base : Registry) (own joined : Registry × NodeId) : Prop :=
  Joins base own.1 joined.1 ∧ joined.2 = base.graph.behind own.2

/-- A trier comes to the same beside a registry as on its own, for names of a given
kind. -/
def Independent
    (base : Registry)
    (concerned : String -> Prop)
    (trier : Trier) : Prop :=
  ∀ own joined name requirement, Joins base own joined → concerned name →
    Outcome.Alike (Corresponds base) (trier own name requirement)
      (trier joined name requirement)

namespace Trial

/-- The first values among outcomes that are alike in order are alike. -/
theorem alike_first
    {ε α β γ : Type}
    {related : β -> γ -> Prop}
    {left : α -> Except ε β}
    {right : α -> Except ε γ}
    (items : List α)
    (alike : ∀ item ∈ items, Outcome.Alike related (left item) (right item)) :
    Outcome.Alike related (first (items.map left)) (first (items.map right)) := by
  induction items with
  | nil => exact .error []
  | cons item rest restAlike =>
      obtain ⟨itemAlike, othersAlike⟩ := List.forall_mem_cons.mp alike
      rw [List.map_cons, List.map_cons]
      generalize left item = leftItem, right item = rightItem at itemAlike ⊢
      cases itemAlike with
      | ok isRelated => exact .ok isRelated
      | error failure => exact (restAlike othersAlike).mapError (List.cons failure)

end Trial

namespace Independent

variable {base own joined : Registry} {concerned : String -> Prop} {trier : Trier}

theorem required
    (independent : Independent base concerned trier)
    (joins : Joins base own joined)
    {requirements : List (String × Requirement)}
    (areConcerned : ∀ entry ∈ requirements, concerned entry.1) :
    Outcome.Alike
      (fun left right => Joins base left.1 right.1
        ∧ right.2 = left.2.map (Prod.map id base.graph.behind))
      (Trial.required trier own requirements)
      (Trial.required trier joined requirements) := by
  induction requirements generalizing own joined with
  | nil => exact .ok ⟨joins, rfl⟩
  | cons entry rest restAlike =>
      obtain ⟨isConcerned, restConcerned⟩ := List.forall_mem_cons.mp areConcerned
      obtain ⟨name, requirement⟩ := entry
      refine (independent own joined name requirement joins isConcerned).bind ?_
      rintro ⟨grown, child⟩ ⟨grownJoined, childJoined⟩ ⟨grownJoins, rfl⟩
      refine (restAlike grownJoins restConcerned).bind ?_
      rintro ⟨last, children⟩ ⟨lastJoined, childrenJoined⟩ ⟨lastJoins, rfl⟩
      exact .ok ⟨lastJoins, rfl⟩

theorem ofCandidate
    (independent : Independent base concerned trier)
    (joins : Joins base own joined)
    {name : String}
    (isNew : own.find? name = none)
    (isApart : base.find? name = none)
    (files : FileSystem)
    (requirement : Requirement)
    (candidate : Candidate)
    (areConcerned : ∀ package,
      Description.loadFile files candidate.format candidate.path = .ok package →
      ∀ dependency ∈ package.requires.names, concerned dependency) :
    Outcome.Alike (Corresponds base)
      (Trial.ofCandidate files trier own name requirement candidate)
      (Trial.ofCandidate files trier joined name requirement candidate) := by
  unfold Trial.ofCandidate
  cases isRead : Description.loadFile files candidate.format candidate.path with
  | error failure => exact .error failure
  | ok package =>
      cases isChecked : requirement.check package with
      | error failure =>
          simp only [isChecked, bind, Except.bind]
          exact .error failure
      | ok met =>
          simp only [isChecked, bind, Except.bind]
          have entriesConcerned : ∀ entry ∈ package.requires.entries,
              concerned entry.1 := fun entry isEntry =>
            areConcerned package isRead entry.1 (List.mem_map_of_mem isEntry)
          refine (independent.required (joins.enter isNew isApart package)
            entriesConcerned).bind ?_
          rintro ⟨grown, children⟩ ⟨grownJoined, childrenJoined⟩ ⟨grownJoins, rfl⟩
          rw [joins.graph.fresh]
          exact .ok ⟨grownJoins.connect own.graph.fresh children, rfl⟩

/-- A trier that looks a name up and tries its candidates otherwise is independent
if the one for their requirements is. -/
theorem ofName
    {world : World}
    {root : String}
    (independent : Independent base (world.Concerns root) trier)
    (areApart : ∀ name, world.Concerns root name → base.find? name = none) :
    Independent base (world.Concerns root)
      (Trial.ofName world.files (offersIn world) trier) := by
  intro own joined name requirement joins isConcerned
  have isApart := areApart name isConcerned
  unfold Trial.ofName offersIn
  rw [joins.find?_eq isApart]
  cases isCached : own.find? name with
  | some id =>
      simp only [Option.map_some, joins.reuse_eq isCached]
      cases own.reuse id requirement with
      | error failure => exact .error failure
      | ok node => exact .ok ⟨joins, rfl⟩
  | none =>
      simp only [Option.map_none]
      cases areCandidates : world.search.candidates world.files name with
      | error failure => exact .error failure
      | ok candidates =>
          simp only [bind, Except.bind]
          refine (Trial.alike_first candidates fun candidate isCandidate => ?_).mapError _
          exact independent.ofCandidate joins isCached isApart world.files requirement
            candidate fun package isRead dependency isRequired =>
              isConcerned.tail
                (World.mem_requiredFor areCandidates isCandidate isRead isRequired)

end Independent

/-- Trials are independent of what is there, however deeply requirements may be
nested, if none of the names that come up is there. -/
theorem Trial.within_independent
    {base : Registry}
    {world : World}
    {root : String}
    (areApart : ∀ name, world.Concerns root name → base.find? name = none)
    (limit : Nat) :
    Independent base (world.Concerns root)
      (within world.files (offersIn world) limit) := by
  induction limit with
  | zero => exact fun _ _ name _ _ _ => .error (Failure.nestedTooDeeply name)
  | succ limit limitIndependent => exact limitIndependent.ofName areApart

/-- Building a name comes to the same beside a registry as on its own. -/
theorem build_corresponds
    {base : Registry}
    (consistent : Consistent base)
    {world : World}
    {name : String}
    (areApart : ∀ other, world.Concerns name other → base.find? other = none)
    (requirement : Requirement) :
    Outcome.Alike (Corresponds base)
      (Trial.ofAttempt (empty.build world name requirement))
      (Trial.ofAttempt (base.build world name requirement)) := by
  have follows : Trial.Follows (Trial.within world.files (offersIn world)
      (nestingLimit world)) (build world) :=
    Trial.within_follows world (nestingLimit world)
  rw [← follows empty name requirement Consistent.empty,
    ← follows base name requirement consistent]
  exact Trial.within_independent areApart (nestingLimit world) empty base name
    requirement (Joins.start base) Relation.ReflTransGen.refl

end Registry

/-! ## Answers -/

/-- What a graph stands beside makes no difference to an answer from it. -/
theorem Query.answerAt_beside
    {base own joined : Graph}
    (beside : base.Beside own joined)
    {root : NodeId}
    (isNode : root ∈ own.nodes)
    (query : Query) :
    query.answerAt joined (base.behind root) = query.answerAt own root := by
  have propagated := beside.embeds.propagate_eq
    (own.closedUnderUse_all (Selection.propagate own root query.wanted).Uses) trivial
    isNode
  unfold Query.answerAt
  rw [propagated]
  simp only [Selection.Propagation.relocate]
  cases (Selection.propagate own root query.wanted).outcome with
  | error failure => rfl
  | ok selection =>
      have flattened : joined.flatten (selection.relocate base.behind)
            (base.behind root) =
          (own.flatten selection root).map base.behind :=
        beside.embeds.flatten_eq (own.closedUnderUse_all _) trivial
      simp only [Except.map, flattened]
      rw [beside.embeds.aggregate_eq (fun _ _ => trivial)
        (fun _ => Graph.mem_nodes_of_mem_flatten) selection query.root]

namespace Registry

/-- A query gets the same answer beside a registry as on its own, and loads the same
packages. -/
theorem resolve_joins
    {base : Registry}
    (consistent : Consistent base)
    {world : World}
    {query : Query}
    (areApart : ∀ other, world.Concerns query.name other → base.find? other = none) :
    Joins base (query.resolve world empty).1 (query.resolve world base).1
      ∧ (query.resolve world base).2 = (query.resolve world empty).2 := by
  have alike := build_corresponds consistent areApart { components := query.components }
  unfold Query.resolve
  generalize isOwn : empty.build world query.name { components := query.components } =
    ownAttempt at alike ⊢
  generalize isJoined : base.build world query.name { components := query.components } =
    joinedAttempt at alike ⊢
  obtain ⟨own, ownOutcome⟩ := ownAttempt
  obtain ⟨joined, joinedOutcome⟩ := joinedAttempt
  cases ownOutcome with
  | error failure =>
      cases joinedOutcome with
      | ok root => cases alike
      | error other =>
          cases alike
          rw [(build_sound world).restored Consistent.empty isOwn,
            (build_sound world).restored consistent isJoined]
          exact ⟨Joins.start base, rfl⟩
  | ok root =>
      cases joinedOutcome with
      | error other => cases alike
      | ok other =>
          cases alike with
          | ok corresponds =>
              obtain ⟨joins, rfl⟩ := corresponds
              have found := (build_sound world).found Consistent.empty isOwn
              have isNode : root ∈ own.graph.nodes :=
                found.consistent.mem_nodes_iff.mpr ⟨query.name, found.cached⟩
              exact ⟨joins, query.answerAt_beside joins.graph isNode⟩

end Registry

namespace Session

/-- As long as none of the names that come up for a query is in the registry of a
session, the query gets the answer that a registry without packages gives: the same
warnings, and the same flags or the same failure with all its causes. The names that
are added are those that such a registry gets, in the same order. -/
theorem resolve_independent
    (calls : List (World × Call))
    {world : World}
    {query : Query}
    (areApart : ∀ other, world.Concerns query.name other →
      (run calls).registry.find? other = none) :
    (query.resolve world (run calls).registry).2 =
        (query.resolve world Registry.empty).2
      ∧ (query.resolve world (run calls).registry).1.journal =
          (run calls).registry.journal
            ++ (query.resolve world Registry.empty).1.journal
      ∧ ∀ other,
          ((run calls).registry.find? other = none
              ∧ ∃ id, (query.resolve world (run calls).registry).1.find? other =
                  some id) ↔
            ∃ id, (query.resolve world Registry.empty).1.find? other = some id := by
  obtain ⟨joins, sameAnswer⟩ :=
    Registry.resolve_joins (run_sound calls).consistent areApart
  refine ⟨sameAnswer, joins.journal, fun other => ?_⟩
  constructor
  · rintro ⟨wasNone, id, isCached⟩
    rw [joins.find?_eq wasNone] at isCached
    obtain ⟨own, isOwn, _⟩ := Option.map_eq_some_iff.mp isCached
    exact ⟨own, isOwn⟩
  · rintro ⟨own, isOwn⟩
    have wasNone := joins.apart other own isOwn
    rw [joins.find?_eq wasNone, isOwn]
    exact ⟨wasNone, _, rfl⟩

/-- A tree with two packages that require each other and a third one. -/
def cycleAndOther : World where
  files := {
    entries := [
      (["a.pc"], .file "Name: a\nRequires: b.pc\n".toUTF8),
      (["b.pc"], .file "Name: b\nRequires: a.pc\n".toUTF8),
      (["c.pc"], .file "Name: c\n".toUTF8)] }
  search := { directories := [] }

/-- The call that loads the third package of that tree. -/
def otherLoaded : List (World × Call) :=
  [(cycleAndOther, .build "c.pc" {})]

/-- The query for the first package of that tree. -/
def cycleQuery : Query where
  name := "a.pc"

/-- Packages that require each other are loaded beside another one as on their own. -/
theorem resolve_independent_cycleAndOther :
    (cycleQuery.resolve cycleAndOther (run otherLoaded).registry).2 =
        (cycleQuery.resolve cycleAndOther Registry.empty).2
      ∧ (cycleQuery.resolve cycleAndOther (run otherLoaded).registry).1.journal =
          ["c.pc", "a.pc", "b.pc"] := by
  have closed : ∀ name ∈ ["a.pc", "b.pc"],
      ∀ dependency ∈ cycleAndOther.requiredFor name,
        dependency ∈ ["a.pc", "b.pc"] := by
    decide +kernel
  have noneThere : ∀ other ∈ ["a.pc", "b.pc"],
      (run otherLoaded).registry.find? other = none := by
    decide +kernel
  have areApart : ∀ other, cycleAndOther.Concerns cycleQuery.name other →
      (run otherLoaded).registry.find? other = none := by
    intro other concerned
    apply noneThere
    induction concerned with
    | refl => exact List.mem_cons_self
    | tail _ isRequired isListed => exact closed _ isListed _ isRequired
  have wasThere : (run otherLoaded).registry.journal = ["c.pc"] := by
    decide +kernel
  have isOwn : (cycleQuery.resolve cycleAndOther Registry.empty).1.journal =
      ["a.pc", "b.pc"] := by
    decide +kernel
  obtain ⟨sameAnswer, journal, _⟩ := resolve_independent otherLoaded areApart
  refine ⟨sameAnswer, ?_⟩
  rw [journal, wasThere, isOwn]
  rfl

end Session
end PackageFlags
