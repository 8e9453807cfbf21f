import PackageFlags.Proofs.Selection.Closure

/-!
# What propagation reports

Each warning is of a demand whose dependency is missing although a needed component
refers to it. A failure names a needed component that is not defined; unless it is a
default component of its package, it is asked for by its name, or a reference names it.
-/

namespace PackageFlags
namespace Selection

variable {graph : Graph} {root : NodeId} {wanted : Wanted}
variable {selection : Selection}

/-! ## Warnings -/

/-- A demand is undeclared when a needed component of its node refers to its
dependency, which is missing there. -/
structure Undeclared
    (graph : Graph)
    (root : NodeId)
    (wanted : Wanted)
    (demand : Demand) : Prop where
  referred : ∃ name reference, graph.Needed root wanted demand.node name
    ∧ graph.Refers demand.node name reference ∧ reference.isInternal = false
    ∧ reference.package = demand.dependency
  isMissing : graph.child? demand.node demand.dependency = none

/-- A demand that is due is undeclared if its dependency is missing. -/
theorem Due.undeclared
    {demand : Demand}
    (due : Due graph root wanted selection demand)
    (sound : Sound graph root wanted selection)
    (isMissing : graph.child? demand.node demand.dependency = none) :
    Undeclared graph root wanted demand := by
  obtain ⟨name, isSelected, reference, refers, isExternal, isDependency⟩ := due.referred
  exact ⟨⟨name, reference, sound.needed isSelected, refers,
    Reference.isInternal_eq_false_iff.mpr isExternal, isDependency⟩, isMissing⟩

/-- Meeting demands adds warnings of undeclared demands. -/
theorem Progress.warnings_meet
    {warnings : List Warning}
    {demands : List Demand}
    (progress : Progress graph root wanted selection demands) :
    ∃ undeclared : List Demand,
      (Selection.meet graph warnings selection demands).warnings =
          warnings ++ undeclared.map (warningFor graph)
        ∧ ∀ demand ∈ undeclared, Undeclared graph root wanted demand := by
  fun_induction Selection.meet graph warnings selection demands with
  | case1 warnings selection => exact ⟨[], by simp, by simp⟩
  | case2 warnings selection demand rest isMissing restWarned =>
      obtain ⟨undeclared, areWarnings, areUndeclared⟩ :=
        restWarned (progress.skip isMissing)
      have isUndeclared := (progress.due demand List.mem_cons_self).undeclared
        progress.sound isMissing
      refine ⟨demand :: undeclared, ?_, List.forall_mem_cons.mpr
        ⟨isUndeclared, areUndeclared⟩⟩
      rw [areWarnings, List.append_assoc, List.singleton_append, List.map_cons]
  | case3 warnings selection demand rest child isChild failure fails =>
      exact ⟨[], by simp, by simp⟩
  | case4 warnings selection demand rest child isChild next more isVisited
      restWarned =>
      exact restWarned (progress.follow isChild isVisited).1

/-- The warnings of propagation are those of undeclared demands. -/
theorem warnings_propagate
    (graph : Graph)
    (root : NodeId)
    (wanted : Wanted) :
    ∃ undeclared : List Demand,
      (propagate graph root wanted).warnings = undeclared.map (warningFor graph)
        ∧ ∀ demand ∈ undeclared, Undeclared graph root wanted demand := by
  unfold propagate
  cases isVisited : visit graph empty root wanted with
  | error failure => exact ⟨[], by simp, by simp⟩
  | ok visited =>
      obtain ⟨first, demands⟩ := visited
      exact @Progress.warnings_meet _ _ _ _ [] _ (Progress.start isVisited).1

end Selection

/-! ## Failures -/

/-- A component that is meant by a reference but is not a default is the one that the
reference names. -/
theorem Reference.Means.component_eq
    {reference : Reference}
    {package : Package}
    {name : String}
    (means : reference.Means package name)
    (notDefault : name ∉ package.defaults) :
    reference.component = some name := by
  unfold Reference.Means at means
  cases isComponent : reference.component with
  | none =>
      rw [isComponent] at means
      exact absurd (Package.mem_defaults.mpr means) notDefault
  | some named =>
      rw [isComponent] at means
      rw [means]

namespace Graph

variable {graph : Graph} {root : NodeId} {wanted : Wanted}
variable {id : NodeId} {name : String}

/-- The node that a reference of a node leads to: itself if the reference stays in its
package, and a dependency otherwise. -/
def Target
    (graph : Graph)
    (id : NodeId)
    (reference : Reference)
    (target : NodeId) : Prop :=
  if reference.isInternal = true then
    target = id
  else
    graph.child? id reference.package = some target

/-- A needed component that is not a default of its package is asked for by its name, or
a reference of a needed component names it. -/
theorem Needed.named
    (needed : graph.Needed root wanted id name)
    {package : Package}
    (isPackage : graph.package? id = some package)
    (notDefault : name ∉ package.defaults) :
    (root = id ∧ name ∈ wanted.components)
      ∨ ∃ other referrer reference, graph.Needed root wanted other referrer
        ∧ graph.Refers other referrer reference ∧ graph.Target other reference id
        ∧ reference.component = some name := by
  cases needed with
  | asked asks =>
      obtain ⟨owner, isOwner, isAsked⟩ := asks
      cases isPackage.symm.trans isOwner
      have isNamed := isAsked.resolve_right fun isDefault =>
        notDefault (Package.mem_defaults.mpr isDefault.2)
      exact Or.inl ⟨rfl, isNamed⟩
  | internal needed refers isInternal means =>
      obtain ⟨owner, isOwner, isMeant⟩ := means
      cases isPackage.symm.trans isOwner
      refine Or.inr ⟨_, _, _, needed, refers, ?_, isMeant.component_eq notDefault⟩
      rw [Target, if_pos (Reference.isInternal_iff.mpr isInternal)]
  | external needed refers isExternal isChild means =>
      obtain ⟨owner, isOwner, isMeant⟩ := means
      cases isPackage.symm.trans isOwner
      refine Or.inr ⟨_, _, _, needed, refers, ?_, isMeant.component_eq notDefault⟩
      rw [Target, if_neg (Reference.isInternal_iff.not.mpr isExternal)]
      exact child?_eq_some_iff.mpr isChild

end Graph
end PackageFlags
