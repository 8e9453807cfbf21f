import PackageFlags.Proofs.Graph.Agreement
import PackageFlags.Proofs.Registry.Sessions

/-!
# What is loaded stays

Calls add to a registry and leave alone what is there: nodes keep their names,
packages and edges, whatever becomes of the files and whichever calls fail. All that
is computed from a node comes to the same at every later point of a session.
-/

namespace PackageFlags

namespace Registry

/-- A registry that grows agrees with the one before on its nodes. -/
theorem Extends.agreeOn
    {before after : Registry}
    (grows : Extends before after) :
    Graph.AgreeOn (· ∈ before.graph.nodes) before.graph after.graph where
  package? := by
    intro id isNode
    obtain ⟨package, isPackage⟩ := Graph.mem_nodes_iff.mp isNode
    rw [isPackage, grows.package?_eq_some isPackage]
  children := fun _ isNode => grows.children_eq isNode

/-- Building adds to the registry, also where it fails. -/
theorem extends_build
    {before : Registry}
    (consistent : Consistent before)
    (world : World)
    (name : String)
    (requirement : Requirement) :
    before.Extends (before.build world name requirement).1 := by
  cases isBuilt : before.build world name requirement with
  | mk after outcome =>
      cases outcome with
      | error failure =>
          rw [(build_sound world).restored consistent isBuilt]
          exact Extends.refl before
      | ok node => exact ((build_sound world).found consistent isBuilt).grows

end Registry

/-- Edges lead from nodes to nodes. -/
theorem Graph.closedUnderEdges_nodes (graph : Graph) :
    graph.ClosedUnderEdges (· ∈ graph.nodes) := by
  rintro id child _ ⟨name, isChild⟩
  exact mem_nodes_of_mem_children isChild

namespace Session

variable {session : Session}

/-- A call adds to the registry. -/
theorem Sound.grows
    (sound : Sound session)
    (world : World)
    (call : Call) :
    session.registry.Extends (session.serve world call).registry := by
  unfold Session.serve
  rw [call.serve_eq]
  exact Registry.extends_build sound.consistent world call.name call.requirement

/-- Later calls add to the registry. -/
theorem run_extends (calls later : List (World × Call)) :
    (run calls).registry.Extends (run (calls ++ later)).registry := by
  induction later using List.reverseRecOn with
  | nil =>
      rw [List.append_nil]
      exact Registry.Extends.refl _
  | append_singleton earlier last earlierGrows =>
      rw [← List.append_assoc, run_append_singleton]
      exact earlierGrows.trans ((run_sound (calls ++ earlier)).grows last.1 last.2)

/-- A name that has been loaded keeps its node through any later calls, in whatever
worlds they are made. The nodes that it reaches are the same and keep their packages
and edges. Propagating and flattening from it give the same as before, and a
selection and an order that were computed earlier are merged into the same flags. -/
theorem run_keeps_loaded
    (calls later : List (World × Call))
    {name : String}
    {id : NodeId}
    (isLoaded : (run calls).registry.find? name = some id) :
    (run (calls ++ later)).registry.find? name = some id
      ∧ (∀ node, (run calls).registry.graph.Reaches id node →
          (∃ package, (run calls).registry.graph.package? node = some package
              ∧ (run (calls ++ later)).registry.graph.package? node =
                  some package)
            ∧ (run (calls ++ later)).registry.graph.outgoing node =
                (run calls).registry.graph.outgoing node)
      ∧ (∀ node, (run (calls ++ later)).registry.graph.Reaches id node ↔
          (run calls).registry.graph.Reaches id node)
      ∧ (∀ wanted,
          Selection.propagate (run (calls ++ later)).registry.graph id wanted =
            Selection.propagate (run calls).registry.graph id wanted)
      ∧ (∀ selection,
          (run (calls ++ later)).registry.graph.flatten selection id =
            (run calls).registry.graph.flatten selection id)
      ∧ ∀ selection root override,
          (run (calls ++ later)).registry.graph.aggregate selection
              ((run calls).registry.graph.flatten selection root) override =
            (run calls).registry.graph.aggregate selection
              ((run calls).registry.graph.flatten selection root) override := by
  have consistent := (run_sound calls).consistent
  have grows := run_extends calls later
  have agree := grows.agreeOn
  have closed := (run calls).registry.graph.closedUnderEdges_nodes
  have isNode : id ∈ (run calls).registry.graph.nodes :=
    consistent.mem_nodes_iff.mpr ⟨name, isLoaded⟩
  refine ⟨grows.find?_eq_some consistent isLoaded, ?_,
    fun _ => agree.reaches_iff closed isNode, agree.propagate_eq closed isNode,
    agree.flatten_eq closed isNode, ?_⟩
  · intro node reaches
    have isReached := closed.inside_of_reaches isNode reaches
    obtain ⟨package, isPackage⟩ := Graph.mem_nodes_iff.mp isReached
    exact ⟨⟨package, isPackage, grows.package?_eq_some isPackage⟩,
      grows.outgoing_eq isReached⟩
  · intro selection root override
    exact agree.aggregate_eq (fun _ => Graph.mem_nodes_of_mem_flatten) selection
      override

/-- A tree with two packages that require each other, the first of which has the
given version. -/
def cycleOf (version : String) : World where
  files := {
    entries := [
      (["a.pc"], .file
        ("Name: a\nVersion: " ++ version ++ "\nRequires: b.pc\n").toUTF8),
      (["b.pc"], .file "Name: b\nRequires: a.pc\n".toUTF8)] }
  search := { directories := [] }

/-- The package that was loaded stays when its file is written anew, and when a later
call fails. -/
theorem run_keeps_loaded_cycleOf :
    ∃ package : Package, package.version = some "1"
      ∧ (run ([(cycleOf "1", .build "a.pc" {})]
          ++ [(cycleOf "2", .build "a.pc" {}),
            (cycleOf "2", .build "missing" {})])).registry.graph.package? 0 =
          some package := by
  have isLoaded : (run [(cycleOf "1", .build "a.pc" {})]).registry.find? "a.pc" =
      some 0 := by
    decide +kernel
  have isFirst : ((run [(cycleOf "1", .build "a.pc" {})]).registry.graph.package?
      0).map Package.version = some (some "1") := by
    decide +kernel
  have keeps := run_keeps_loaded _ [(cycleOf "2", .build "a.pc" {}),
    (cycleOf "2", .build "missing" {})] isLoaded
  obtain ⟨⟨package, wasPackage, isPackage⟩, _⟩ :=
    keeps.2.1 0 (Graph.Reaches.refl _ 0)
  rw [wasPackage, Option.map_some, Option.some.injEq] at isFirst
  exact ⟨package, isFirst, isPackage⟩

end Session
end PackageFlags
