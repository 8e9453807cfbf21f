import Mathlib.Logic.Relation
import PackageFlags.Graph.Basic

/-!
# Reachability in package graphs

A node reaches another one when edges lead from the first to the second, over any
number of nodes between them.
-/

namespace PackageFlags
namespace Graph

/-- An edge leads from one node to another. -/
def Adjacent (graph : Graph) (source target : NodeId) : Prop :=
  ∃ name, (name, target) ∈ graph.children source

/-- Edges lead from one node to another, over any number of nodes. -/
def Reaches (graph : Graph) : NodeId -> NodeId -> Prop :=
  Relation.ReflTransGen graph.Adjacent

theorem Reaches.refl (graph : Graph) (id : NodeId) : graph.Reaches id id :=
  Relation.ReflTransGen.refl

/-- What a dependency reaches, its dependent reaches as well. -/
theorem Reaches.head
    {graph : Graph}
    {source child target : NodeId}
    {name : String}
    (isChild : (name, child) ∈ graph.children source)
    (reaches : graph.Reaches child target) :
    graph.Reaches source target :=
  Relation.ReflTransGen.head ⟨name, isChild⟩ reaches

/-- With more edges, more is reached. -/
theorem Reaches.mono
    {smaller larger : Graph}
    (edges : smaller.edges ⊆ larger.edges)
    {source target : NodeId}
    (reaches : smaller.Reaches source target) :
    larger.Reaches source target := by
  refine Relation.ReflTransGen.mono ?_ _ _ reaches
  rintro left right ⟨name, isChild⟩
  exact ⟨name, mem_children.mpr (edges (mem_children.mp isChild))⟩

end Graph
end PackageFlags
