import Mathlib.Data.List.Induction
import PackageFlags.Proofs.Registry.Builders
import PackageFlags.Query

/-!
# Sessions

A session is what one registry goes through: any number of calls, each of which
builds a name or answers a query, and succeeds or fails. Files may change between
calls, so each call comes with the world that it is made in. After every call the
registry holds finished packages only, and each of them is needed by a node that
was built for a call.
-/

namespace PackageFlags

/-- A call on a registry. -/
inductive Call
  /-- Find or load the node for a name under a requirement. -/
  | build (name : String) (requirement : Requirement)
  /-- Answer a query. -/
  | resolve (query : Query)

namespace Call

/-- The name that a call builds the node of. -/
def name : Call -> String
  | .build name _ => name
  | .resolve query => query.name

/-- What a call requires of the package that it builds the node of. -/
def requirement : Call -> Requirement
  | .build _ requirement => requirement
  | .resolve query => { components := query.components }

/-- The registry after a call. -/
def serve (call : Call) (world : World) (registry : Registry) : Registry :=
  match call with
  | .build name requirement => (registry.build world name requirement).1
  | .resolve query => (query.resolve world registry).1

/-- Whether a call as a whole succeeds. -/
def succeeds (call : Call) (world : World) (registry : Registry) : Bool :=
  match call with
  | .build name requirement => (registry.build world name requirement).2.isOk
  | .resolve query => (query.resolve world registry).2.outcome.isOk

/-- Queries leave the registry as building their package does. -/
theorem serve_eq (call : Call) (world : World) (registry : Registry) :
    call.serve world registry =
      (registry.build world call.name call.requirement).1 := by
  cases call with
  | build name requirement => rfl
  | resolve query =>
      change (query.resolve world registry).1 = (registry.build world query.name
        { components := query.components }).1
      unfold Query.resolve
      split
      · rename_i grown failure isBuilt
        rw [isBuilt]
      · rename_i grown root isBuilt
        rw [isBuilt]

end Call

/-- A node that was built for a call. -/
structure Grant where
  /-- The name that the node was asked for by. -/
  name : String
  /-- What was required of its package. -/
  requirement : Requirement
  /-- The node. -/
  node : NodeId
  /-- Whether the call as a whole succeeded: a query may fail although the node of
  its package was built. -/
  succeeded : Bool

/-- A registry with the nodes that were built for calls, the latest first. -/
structure Session where
  /-- The registry. -/
  registry : Registry := .empty
  /-- The nodes that were built. -/
  grants : List Grant := []

namespace Session

/-- A session after one more call. -/
def serve (session : Session) (world : World) (call : Call) : Session where
  registry := call.serve world session.registry
  grants :=
    match (session.registry.build world call.name call.requirement).2 with
    | .ok node =>
        { name := call.name
          requirement := call.requirement
          node
          succeeded := call.succeeds world session.registry } :: session.grants
    | .error _ => session.grants

/-- The session after a list of calls. -/
def run (calls : List (World × Call)) : Session :=
  calls.foldl (fun session (world, call) => session.serve world call) {}

/-- One more call is made in the session after those before it. -/
theorem run_append_singleton
    (calls : List (World × Call))
    (world : World)
    (call : Call) :
    run (calls ++ [(world, call)]) = (run calls).serve world call := by
  unfold run
  rw [List.foldl_append]
  rfl

/-- What holds after every call. -/
structure Sound (session : Session) : Prop where
  consistent : session.registry.Consistent
  /-- All nodes are finished. -/
  finished : ∀ node ∈ session.registry.graph.nodes,
    session.registry.Finished node
  /-- All nodes are reached from nodes that were built for calls. -/
  reached : ∀ node ∈ session.registry.graph.nodes,
    ∃ grant ∈ session.grants, session.registry.graph.Reaches grant.node node
  /-- Nodes that were built for calls are kept. -/
  kept : ∀ grant ∈ session.grants,
    session.registry.find? grant.name = some grant.node
      ∧ session.registry.Meets grant.node grant.requirement

namespace Sound

variable {session : Session}

theorem empty : Sound {} where
  consistent := Registry.Consistent.empty
  finished := by
    intro node isNode
    simp [Registry.empty, Graph.empty, Graph.nodes] at isNode
  reached := by
    intro node isNode
    simp [Registry.empty, Graph.empty, Graph.nodes] at isNode
  kept := by simp

/-- The dependencies of a node have the names that its package requires. -/
theorem names_children
    (sound : Sound session)
    {node : NodeId}
    {package : Package}
    (isPackage : session.registry.graph.package? node = some package) :
    (session.registry.graph.children node).map Prod.fst = package.requires.names := by
  obtain ⟨owner, isOwner, provided⟩ :=
    sound.finished node (Graph.mem_nodes_of_package? isPackage)
  cases isPackage.symm.trans isOwner
  exact Registry.names_of_provided provided

/-- A node that has been found or loaded joins those that were built before. -/
theorem found
    (sound : Sound session)
    {after : Registry}
    {grant : Grant}
    (found : Registry.Found session.registry after grant.name
      grant.requirement grant.node) :
    Sound { registry := after, grants := grant :: session.grants } where
  consistent := found.consistent
  finished := by
    intro node isNode
    by_cases isOld : node ∈ session.registry.graph.nodes
    · exact found.grows.finished sound.consistent (sound.finished node isOld)
    · exact (found.complete node isNode isOld).1
  reached := by
    intro node isNode
    by_cases isOld : node ∈ session.registry.graph.nodes
    · obtain ⟨older, isOlder, reached⟩ := sound.reached node isOld
      exact ⟨older, List.mem_cons_of_mem grant isOlder,
        found.grows.reaches reached⟩
    · exact ⟨grant, List.mem_cons_self, (found.complete node isNode isOld).2⟩
  kept := by
    intro other member
    rcases List.mem_cons.mp member with isNew | isOlder
    · rw [isNew]
      exact ⟨found.cached, found.meets⟩
    · obtain ⟨isCached, meets⟩ := sound.kept other isOlder
      exact ⟨found.grows.find?_eq_some sound.consistent isCached,
        found.grows.meets meets⟩

/-- A call keeps a session sound. -/
theorem serve (sound : Sound session) (world : World) (call : Call) :
    Sound (session.serve world call) := by
  unfold Session.serve
  rw [call.serve_eq]
  cases isBuilt : session.registry.build world call.name call.requirement with
  | mk after outcome =>
      cases outcome with
      | error failure =>
          have unchanged :=
            (Registry.build_sound world).restored sound.consistent isBuilt
          subst unchanged
          exact sound
      | ok node =>
          exact sound.found
            ((Registry.build_sound world).found sound.consistent isBuilt)

end Sound

/-- Sessions are sound after every call. -/
theorem run_sound (calls : List (World × Call)) : Sound (run calls) := by
  induction calls using List.reverseRecOn with
  | nil => exact Sound.empty
  | append_singleton earlier last earlierSound =>
      rw [run_append_singleton]
      exact earlierSound.serve last.1 last.2

/-- After any calls, names and nodes are in bijection, and the journal lists the
names: each has a node of the graph, no two have the same one, and each node is that of
one name. The dependencies of each node are the nodes of the names that its package
requires, one for each entry, and meet what it requires of them. Each node is
reached from one that was built for a call, and such a node is still that of its
name and meets what the call required. -/
theorem run_graph_sound (calls : List (World × Call)) :
    (run calls).registry.journal.Nodup
      ∧ (∀ name, name ∈ (run calls).registry.journal ↔
          ∃ node, (run calls).registry.find? name = some node)
      ∧ (∀ name node, (run calls).registry.find? name = some node →
          node ∈ (run calls).registry.graph.nodes)
      ∧ (∀ left right node, (run calls).registry.find? left = some node →
          (run calls).registry.find? right = some node → left = right)
      ∧ (∀ node, node ∈ (run calls).registry.graph.nodes ↔
          ∃! name, (run calls).registry.find? name = some node)
      ∧ (∀ node ∈ (run calls).registry.graph.nodes,
          ∃ package, (run calls).registry.graph.package? node = some package
            ∧ List.Forall₂ (run calls).registry.Provides
                ((run calls).registry.graph.children node)
                package.requires.entries)
      ∧ (∀ node ∈ (run calls).registry.graph.nodes,
          ∃ grant ∈ (run calls).grants,
            (run calls).registry.graph.Reaches grant.node node)
      ∧ ∀ grant ∈ (run calls).grants,
          (run calls).registry.find? grant.name = some grant.node
            ∧ (run calls).registry.Meets grant.node grant.requirement := by
  have sound := run_sound calls
  have consistent := sound.consistent
  refine ⟨consistent.nodup, fun name => consistent.mem_journal_iff,
    fun name node isCached => consistent.mem_nodes_iff.mpr ⟨name, isCached⟩,
    fun left right node => consistent.find?_injective, ?_,
    sound.finished, sound.reached, sound.kept⟩
  intro node
  rw [consistent.mem_nodes_iff]
  constructor
  · rintro ⟨name, isCached⟩
    exact ⟨name, isCached, fun other isOther =>
      consistent.find?_injective isOther isCached⟩
  · rintro ⟨name, isCached, _⟩
    exact ⟨name, isCached⟩

/-- A tree with one description, of a package whose default component is not
defined. -/
def undefinedDefault : World where
  files := {
    entries := [(["a.cps"], .file (
      "\x7b\"name\": \"a\", \"cps_version\": \"0.10.0\", " ++
      "\"components\": \x7b\"c\": \x7b\"type\": \"interface\"\x7d\x7d, " ++
      "\"default_components\": [\"d\"]\x7d").toUTF8)] }
  search := { directories := [] }

/-- One query for that package. -/
def undefinedDefaultCalls : List (World × Call) :=
  [(undefinedDefault, .resolve { name := "a.cps" })]

/-- A query that fails after its package was built leaves the package, which then
no call that succeeded has the node of. -/
theorem exists_unreached_from_succeeded :
    ¬ ∀ (calls : List (World × Call)) (node : NodeId),
      node ∈ (run calls).registry.graph.nodes →
      ∃ grant ∈ (run calls).grants, grant.succeeded = true
        ∧ (run calls).registry.graph.Reaches grant.node node := by
  intro all
  have isNode : 0 ∈ (run undefinedDefaultCalls).registry.graph.nodes := by
    decide +kernel
  have noneSucceeded : ∀ grant ∈ (run undefinedDefaultCalls).grants,
      grant.succeeded = false := by
    decide +kernel
  obtain ⟨grant, isGrant, succeeded, _⟩ := all undefinedDefaultCalls 0 isNode
  have fails := noneSucceeded grant isGrant
  rw [fails] at succeeded
  exact Bool.false_ne_true succeeded

end Session
end PackageFlags
