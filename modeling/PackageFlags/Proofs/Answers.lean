import PackageFlags.Proofs.Flags.Contributions
import PackageFlags.Proofs.Graph.Flattening
import PackageFlags.Proofs.Selection.Closure
import PackageFlags.Query

/-!
# What answers are made of

The packages that are ordered for an answer are those to which needed components
lead, and every needed component belongs to one of them. The flags of an answer
are therefore made of the needed components, each of which contributes once.
-/

namespace PackageFlags

namespace Selection

variable {graph : Graph} {root : NodeId} {wanted : Wanted}
variable {selection : Selection} {id : NodeId}

/-- When all demands are met, a node uses the dependencies that its needed
components lead to. -/
theorem Settled.uses_iff_leadsTo
    (settled : Settled graph root wanted selection)
    {child : NodeId} :
    graph.Uses selection id child ↔ graph.LeadsTo root wanted id child := by
  constructor
  · rintro ⟨dependency, isEdge, isUsed⟩
    obtain ⟨_, name, isSelected, reference, refers, isExternal, rfl⟩ :=
      settled.uses_iff.mp (decide_eq_true isUsed)
    exact ⟨name, reference, settled.mem_components_iff.mp isSelected, refers,
      isExternal, isEdge⟩
  · rintro ⟨name, reference, needed, refers, isExternal, isEdge⟩
    have isSelected := settled.mem_components_iff.mpr needed
    have isUsed := settled.uses_iff.mpr
      ⟨⟨child, isEdge⟩, name, isSelected, reference, refers, isExternal, rfl⟩
    exact ⟨reference.package, isEdge, of_decide_eq_true isUsed⟩

/-- The nodes that are reached over used dependencies are those to which needed
components lead. -/
theorem Settled.reachesUsed_iff
    (settled : Settled graph root wanted selection) :
    graph.ReachesUsed selection root id ↔
      Relation.ReflTransGen (graph.LeadsTo root wanted) root id := by
  have same : graph.Uses selection = graph.LeadsTo root wanted := by
    funext source child
    exact propext settled.uses_iff_leadsTo
  rw [Graph.ReachesUsed, same]

/-- Needed components belong to nodes to which needed components lead. -/
theorem leadsTo_of_needed
    {name : String}
    (needed : graph.Needed root wanted id name) :
    Relation.ReflTransGen (graph.LeadsTo root wanted) root id := by
  induction needed with
  | asked asks => exact Relation.ReflTransGen.refl
  | internal _ _ _ _ leads => exact leads
  | external needed refers isExternal isChild _ leads =>
      apply leads.tail
      obtain ⟨newer, older, isSplit, _⟩ := isChild
      exact ⟨_, _, needed, refers, isExternal, by simp [isSplit]⟩

end Selection

namespace Query

/-- The passes behind an answer with flags. -/
theorem answerAt_eq_ok
    {query : Query}
    {graph : Graph}
    {root : NodeId}
    {flags : Flags}
    (isAnswered : (query.answerAt graph root).outcome = .ok flags) :
    ∃ selection, root ∈ graph.nodes
      ∧ Selection.Settled graph root
          { defaults := query.useDefaults, components := query.components } selection
      ∧ graph.aggregate selection (graph.flatten selection root) query.root =
          .ok flags := by
  unfold answerAt at isAnswered
  cases isPropagated : (Selection.propagate graph root query.wanted).outcome with
  | error failure => simp [isPropagated] at isAnswered
  | ok selection =>
      simp only [isPropagated] at isAnswered
      exact ⟨selection, Selection.mem_nodes_of_propagate isPropagated,
        Selection.settled_of_propagate isPropagated, isAnswered⟩

/-- Keys do not repeat when neither nodes do nor the names of a node. -/
theorem nodup_keys
    {order : List NodeId}
    {chosen : NodeId → List String}
    (orderNodup : order.Nodup)
    (chosenNodup : ∀ id, (chosen id).Nodup) :
    (order.flatMap fun id => (chosen id).map fun name => (id, name)).Nodup := by
  refine List.nodup_flatMap.mpr ⟨fun id _ => ?_, orderNodup.imp ?_⟩
  · exact (chosenNodup id).map fun _ _ same => (Prod.mk.inj same).2
  · rintro left right different key isLeft isRight
    obtain ⟨_, _, rfl⟩ := List.mem_map.mp isLeft
    obtain ⟨_, _, same⟩ := List.mem_map.mp isRight
    exact different (Prod.mk.inj same).1.symm

/-- The flags of an answer are made of the needed components. There is an order of
the packages to which they lead, with the package asked for first, and for each of
them an order of its needed components, such that every list of the flags is the
concatenation of the lists of these components. -/
theorem resolve_collects
    {query : Query}
    {world : World}
    {registry : Registry}
    {flags : Flags}
    (isAnswered : (query.resolve world registry).2.outcome = .ok flags) :
    ∃ (root : NodeId) (order : List NodeId) (chosen : NodeId → List String)
      (parts : List Part),
      registry.build world query.name { components := query.components } =
          ((query.resolve world registry).1, .ok root)
        ∧ order.Nodup ∧ order.head? = some root
        ∧ (∀ id, id ∈ order ↔ Relation.ReflTransGen
            ((query.resolve world registry).1.graph.LeadsTo root
              { defaults := query.useDefaults, components := query.components })
            root id)
        ∧ (∀ id, (chosen id).Nodup ∧ ∀ name, name ∈ chosen id ↔
            (query.resolve world registry).1.graph.Needed root
              { defaults := query.useDefaults, components := query.components } id name)
        ∧ (∀ id, chosen id ≠ [] → id ∈ order)
        ∧ (parts.map Part.key).Nodup
        ∧ parts.map Part.key =
            order.flatMap (fun id => (chosen id).map fun name => (id, name))
        ∧ (∀ part ∈ parts, part.Valid (query.resolve world registry).1.graph)
        ∧ flags.toSettings.Collects query.root parts := by
  unfold resolve at isAnswered ⊢
  cases isBuilt : registry.build world query.name
      { components := query.components } with
  | mk grown outcome =>
      cases outcome with
      | error failure => simp [isBuilt] at isAnswered
      | ok root =>
          simp only [isBuilt] at isAnswered ⊢
          obtain ⟨selection, isNode, settled, isMerged⟩ := answerAt_eq_ok isAnswered
          obtain ⟨parts, areKeys, areValid, collects⟩ :=
            Graph.gathers_aggregate isMerged
          have chosenNodup : ∀ id, (selection.components id).Nodup :=
            Selection.nodup_components settled.sound.distinct
          have orderNodup := grown.graph.flatten_nodup selection root
          refine ⟨root, grown.graph.flatten selection root, selection.components,
            parts, rfl, orderNodup, Graph.head?_flatten isNode, fun id => ?_,
            fun id => ⟨chosenNodup id, fun name => settled.mem_components_iff⟩,
            fun id hasComponents => ?_,
            areKeys ▸ nodup_keys orderNodup chosenNodup,
            areKeys, areValid, collects⟩
          · rw [Graph.mem_flatten_iff isNode, settled.reachesUsed_iff]
          · obtain ⟨name, isSelected⟩ := List.exists_mem_of_ne_nil _ hasComponents
            rw [Graph.mem_flatten_iff isNode, settled.reachesUsed_iff]
            apply Selection.leadsTo_of_needed
            exact settled.mem_components_iff.mp isSelected

/-- A tree with two packages that require each other. The first one has a component to
link; the second one has flags for the compiler, and a library. -/
def mutualWorld : World where
  files := {
    entries := [
      (["a.cps"], .file (
        "\x7b\"name\":\"a\",\"cps_version\":\"0.10.0\",\"prefix\":\"/a\"," ++
        "\"components\":\x7b\"x\":\x7b\"type\":\"archive\"," ++
        "\"location\":\"@prefix@//x\",\"requires\":[\"b.pc\"]\x7d\x7d," ++
        "\"requires\":\x7b\"b.pc\":\x7b\x7d\x7d\x7d").toUTF8),
      (["b.pc"], .file (
        "prefix=/b\nName: b\nRequires: a.cps\n" ++
        "Cflags: -I@prefix@/i -DN\nLibs: -lz").toUTF8)] }
  search := { directories := [] }

/-- A query for the component of the first package. -/
def mutualQuery : Query where
  name := "a.cps"
  components := ["x"]

/-- The components that are needed for the query, and the edges that they use. -/
def mutualSelection : Selection where
  selected := [(0, "x"), (1, "b")]
  used := [(0, "b.pc"), (1, "a.cps")]

/-- The flags for the query. -/
def mutualFlags : Flags where
  includes := .constant ["/b/i"]
  definitions := .constant [{ name := "N" }]
  linkLibraries := ["z"]
  linkLocations := ["/a/x"]
  version := "unknown"

/-- The flags for two packages that require each other are made of one component of each:
what is linked comes from the first, and the flags for the compiler from the second, both
below the root of their package. -/
theorem resolve_collects_mutualWorld :
    (mutualQuery.resolve mutualWorld .empty).2.outcome = .ok mutualFlags
      ∧ ∃ parts : List Part, parts.map Part.key = [(0, "x"), (1, "b")]
          ∧ (∀ part ∈ parts,
              part.Valid (mutualQuery.resolve mutualWorld .empty).1.graph)
          ∧ mutualFlags.toSettings.Collects none parts := by
  have evaluated :
      (mutualQuery.resolve mutualWorld .empty).2.outcome.toOption = some mutualFlags
        ∧ (Registry.build mutualWorld .empty mutualQuery.name
            { components := mutualQuery.components }).2.toOption = some 0
        ∧ (Selection.propagate (mutualQuery.resolve mutualWorld .empty).1.graph 0
            { defaults := mutualQuery.useDefaults
              components := mutualQuery.components }).outcome.toOption =
                some mutualSelection
        ∧ (mutualQuery.resolve mutualWorld .empty).1.graph.flatten mutualSelection 0 =
            [0, 1] := by
    decide +kernel
  obtain ⟨isAnswered, isRoot, isPropagated, isFlattened⟩ := evaluated
  replace isAnswered := Outcome.eq_ok_of_toOption isAnswered
  replace isPropagated := Outcome.eq_ok_of_toOption isPropagated
  have settled := Selection.settled_of_propagate isPropagated
  have isNode := Selection.mem_nodes_of_propagate isPropagated
  obtain ⟨root, order, chosen, parts, isBuilt, orderNodup, isFirst, areReached, areChosen,
    _, _, areKeys, areValid, collects⟩ := resolve_collects isAnswered
  obtain rfl : 0 = root := by
    rw [isBuilt] at isRoot
    exact (Option.some.inj isRoot).symm
  have isOrder : order = [0, 1] := by
    obtain ⟨rest, rfl⟩ := List.head?_eq_some_iff.mp isFirst
    have isPerm : (0 :: rest).Perm [0, 1] := by
      rw [List.perm_ext_iff_of_nodup orderNodup (by decide), ← isFlattened]
      intro id
      rw [areReached, Graph.mem_flatten_iff isNode, settled.reachesUsed_iff]
    rw [List.perm_singleton.mp isPerm.cons_inv]
  have isChosen : ∀ id, (chosen id).Perm (mutualSelection.components id) := by
    intro id
    rw [List.perm_ext_iff_of_nodup (areChosen id).1
      (Selection.nodup_components settled.sound.distinct id)]
    intro name
    rw [(areChosen id).2, settled.mem_components_iff]
  have isOfFirst : chosen 0 = ["x"] := List.perm_singleton.mp (isChosen 0)
  have isOfSecond : chosen 1 = ["b"] := List.perm_singleton.mp (isChosen 1)
  refine ⟨isAnswered, parts, ?_, areValid, collects⟩
  rw [areKeys, isOrder]
  simp [isOfFirst, isOfSecond]

end Query
end PackageFlags
