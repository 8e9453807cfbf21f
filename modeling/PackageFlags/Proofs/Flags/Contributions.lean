import Mathlib.Data.List.Forall2
import PackageFlags.Flags.Merging
import PackageFlags.Proofs.Outcome
import PackageFlags.Proofs.Substitution

/-!
# What components contribute

The flags that are merged from a selection are made of parts, one for each selected
component. Every list of the flags is the concatenation of the lists of the parts,
in their order, with paths below the installation root of the package.
-/

namespace PackageFlags

/-- A component with its package and where they are. -/
structure Part where
  /-- The node of the package. -/
  node : NodeId
  /-- The name of the component. -/
  name : String
  /-- The package. -/
  package : Package
  /-- The component. -/
  component : Component

namespace Part

/-- The node and the name of the component. -/
def key (part : Part) : NodeId × String :=
  (part.node, part.name)

/-- The installation root that paths are put below: one that is given for all
packages, or that of the package itself. -/
def root (override : Option Path) (part : Part) : Path :=
  override.getD part.package.root

/-- The path to link: none for an interface, and otherwise the one that is stated
for linking or the location of the component. -/
def artifact? (part : Part) : Option String :=
  if part.component.kind = .interface then
    none
  else
    part.component.linkLocation <|> part.component.location

/-- The part is what its key stands for in a graph, and it has something to link
unless it is an interface. -/
structure Valid (graph : Graph) (part : Part) : Prop where
  isPackage : graph.package? part.node = some part.package
  isComponent : part.package.components.get? part.name = some part.component
  hasArtifact : part.component.kind ≠ .interface → part.artifact?.isSome = true

end Part

/-- The paths that parts state, one after another, each put below the root of its part. -/
def ArePlaced
    (override : Option Path)
    (parts : List Part)
    (stated : Part -> List String)
    (placed : List String) : Prop :=
  List.Forall₂ (fun path result => InstallRoot.Places path.1 path.2 result)
    (parts.flatMap fun part =>
      (stated part).map fun path => (part.root override, path))
    placed

section ArePlaced

variable {override : Option Path} {stated : Part -> List String}

theorem ArePlaced.nil : ArePlaced override [] stated [] :=
  List.Forall₂.nil

theorem ArePlaced.append
    {leftParts rightParts : List Part}
    {left right : List String}
    (isLeft : ArePlaced override leftParts stated left)
    (isRight : ArePlaced override rightParts stated right) :
    ArePlaced override (leftParts ++ rightParts) stated (left ++ right) := by
  unfold ArePlaced
  rw [List.flatMap_append]
  exact List.rel_append isLeft isRight

theorem arePlaced_singleton (part : Part) :
    ArePlaced override [part] stated
      ((stated part).map (InstallRoot.substitute (part.root override))) := by
  unfold ArePlaced
  rw [List.flatMap_singleton, List.forall₂_map_left_iff, List.forall₂_map_right_iff,
    List.forall₂_same]
  intro path isStated
  exact InstallRoot.places_iff.mpr rfl

end ArePlaced

namespace Settings

/-- The lists of settings are those of parts, one after another. -/
structure Collects
    (settings : Settings)
    (override : Option Path)
    (parts : List Part) : Prop where
  compileFlags : ∀ language, settings.compileFlags.elements language =
    parts.flatMap fun part => part.component.compileFlags.elements language
  includes : ∀ language, ArePlaced override parts
    (fun part => part.component.includes.elements language)
    (settings.includes.elements language)
  definitions : ∀ language, settings.definitions.elements language =
    parts.flatMap fun part => part.component.definitions.elements language
  linkFlags : settings.linkFlags =
    parts.flatMap fun part => part.component.linkFlags
  linkLibraries : settings.linkLibraries =
    parts.flatMap fun part => part.component.linkLibraries
  linkLocations : ArePlaced override parts (fun part => part.artifact?.toList)
    settings.linkLocations

variable {override : Option Path}

theorem Collects.empty : Collects Settings.empty override [] where
  compileFlags := fun language => by cases language <;> rfl
  includes := fun language => by cases language <;> exact ArePlaced.nil
  definitions := fun language => by cases language <;> rfl
  linkFlags := rfl
  linkLibraries := rfl
  linkLocations := ArePlaced.nil

theorem Collects.append
    {left right : Settings}
    {leftParts rightParts : List Part}
    (isLeft : left.Collects override leftParts)
    (isRight : right.Collects override rightParts) :
    (left.append right).Collects override (leftParts ++ rightParts) where
  compileFlags := by
    intro language
    rw [List.flatMap_append, ← isLeft.compileFlags, ← isRight.compileFlags]
    exact PerLanguage.elements_append _ _ language
  includes := by
    intro language
    rw [Settings.append, PerLanguage.elements_append]
    exact (isLeft.includes language).append (isRight.includes language)
  definitions := by
    intro language
    rw [List.flatMap_append, ← isLeft.definitions, ← isRight.definitions]
    exact PerLanguage.elements_append _ _ language
  linkFlags := by
    rw [List.flatMap_append, ← isLeft.linkFlags, ← isRight.linkFlags]
    rfl
  linkLibraries := by
    rw [List.flatMap_append, ← isLeft.linkLibraries, ← isRight.linkLibraries]
    rfl
  linkLocations := isLeft.linkLocations.append isRight.linkLocations

/-- Settings are gathered from the components with given keys, each of which is
valid in a graph. -/
def Gathers
    (graph : Graph)
    (override : Option Path)
    (settings : Settings)
    (keys : List (NodeId × String)) : Prop :=
  ∃ parts : List Part, parts.map Part.key = keys
    ∧ (∀ part ∈ parts, part.Valid graph) ∧ settings.Collects override parts

variable {graph : Graph}

theorem Gathers.empty : Gathers graph override Settings.empty [] :=
  ⟨[], rfl, by simp, Collects.empty⟩

theorem Gathers.append
    {left right : Settings}
    {leftKeys rightKeys : List (NodeId × String)}
    (isLeft : Gathers graph override left leftKeys)
    (isRight : Gathers graph override right rightKeys) :
    Gathers graph override (left.append right) (leftKeys ++ rightKeys) := by
  obtain ⟨leftParts, rfl, leftValid, leftCollects⟩ := isLeft
  obtain ⟨rightParts, rfl, rightValid, rightCollects⟩ := isRight
  refine ⟨leftParts ++ rightParts, List.map_append, ?_,
    leftCollects.append rightCollects⟩
  intro part isPart
  rcases List.mem_append.mp isPart with isLeft | isRight
  · exact leftValid part isLeft
  · exact rightValid part isRight

/-- Settings that are gathered for each item of a list are gathered for all of
them together. -/
theorem Gathers.concat
    {α : Type}
    {gather : α -> Except Failure Settings}
    {keys : α -> List (NodeId × String)}
    (gathers : ∀ item settings, gather item = .ok settings →
      Gathers graph override settings (keys item))
    {items : List α}
    {results : List Settings}
    (isDone : items.mapM gather = .ok results) :
    Gathers graph override (Settings.concat results) (items.flatMap keys) := by
  induction items generalizing results with
  | nil =>
      rw [List.mapM_nil] at isDone
      cases isDone
      exact Gathers.empty
  | cons first rest restGathers =>
      rw [List.mapM_cons] at isDone
      obtain ⟨settings, isFirst, isMore⟩ := Outcome.bind_eq_ok.mp isDone
      obtain ⟨others, isRest, same⟩ := Outcome.bind_eq_ok.mp isMore
      rw [← Outcome.pure_eq_ok.mp same, concat_cons, List.flatMap_cons]
      exact (gathers first settings isFirst).append (restGathers isRest)

end Settings

/-- The settings of a component are collected from it alone. -/
theorem Component.collects_settings?
    {graph : Graph}
    {override : Option Path}
    {part : Part}
    (isPackage : graph.package? part.node = some part.package)
    (isComponent : part.package.components.get? part.name = some part.component)
    {settings : Settings}
    (isDone : part.component.settings? (part.root override) = some settings) :
    part.Valid graph ∧ settings.Collects override [part] := by
  unfold settings? at isDone
  obtain ⟨artifacts, isArtifacts, rfl⟩ := Option.map_eq_some_iff.mp isDone
  have isStated : artifacts = part.artifact?.toList
      ∧ (part.component.kind ≠ .interface → part.artifact?.isSome = true) := by
    unfold Component.artifacts at isArtifacts
    unfold Part.artifact?
    split at isArtifacts
    · rename_i isInterface
      cases isArtifacts
      simp [isInterface]
    · rename_i notInterface
      obtain ⟨path, isPath, rfl⟩ := Option.map_eq_some_iff.mp isArtifacts
      simp [notInterface, isPath]
  refine ⟨⟨isPackage, isComponent, isStated.2⟩, ?_⟩
  exact {
    compileFlags := by simp
    includes := by
      intro language
      rw [PerLanguage.elements_map]
      exact arePlaced_singleton part
    definitions := by simp
    linkFlags := by simp
    linkLibraries := by simp
    linkLocations := by
      rw [isStated.1]
      exact arePlaced_singleton part }

variable {graph : Graph} {override : Option Path}

/-- What a component contributes is gathered from it alone. -/
theorem Package.gathers_settingsOf
    {id : NodeId}
    {package : Package}
    (isPackage : graph.package? id = some package)
    {name : String}
    {settings : Settings}
    (isDone : package.settingsOf (override.getD package.root) name =
      .ok settings) :
    Settings.Gathers graph override settings [(id, name)] := by
  unfold settingsOf at isDone
  cases isComponent : package.components.get? name with
  | none => simp [isComponent] at isDone
  | some component =>
      cases isStated : component.settings? (override.getD package.root) with
      | none => simp [isComponent, isStated] at isDone
      | some stated =>
          simp only [isComponent, isStated, Except.ok.injEq] at isDone
          let part : Part := { node := id, name, package, component }
          have collected : part.Valid graph ∧ stated.Collects override [part] :=
            Component.collects_settings? isPackage isComponent isStated
          refine ⟨[part], rfl, ?_, isDone ▸ collected.2⟩
          simpa using collected.1

namespace Graph

variable {selection : Selection}

/-- What a node contributes is gathered from its selected components. -/
theorem gathers_settingsAt
    {id : NodeId}
    {settings : Settings}
    (isDone : graph.settingsAt selection override id = .ok settings) :
    Settings.Gathers graph override settings
      ((selection.components id).map fun name => (id, name)) := by
  unfold settingsAt at isDone
  cases isPackage : graph.package? id with
  | none => simp [isPackage] at isDone
  | some package =>
      simp only [isPackage] at isDone
      obtain ⟨results, areDone, rfl⟩ := Outcome.map_eq_ok.mp isDone
      have gathered := Settings.Gathers.concat
        (fun name settings => Package.gathers_settingsOf isPackage) areDone
      rwa [← List.map_eq_flatMap] at gathered

/-- The flags that are merged in an order are gathered from the selected components
of its nodes. -/
theorem gathers_aggregate
    {order : List NodeId}
    {flags : Flags}
    (isDone : graph.aggregate selection order override = .ok flags) :
    Settings.Gathers graph override flags.toSettings
      (order.flatMap fun id =>
        (selection.components id).map fun name => (id, name)) := by
  unfold aggregate at isDone
  obtain ⟨results, areDone, rfl⟩ := Outcome.map_eq_ok.mp isDone
  exact Settings.Gathers.concat (fun _ _ => gathers_settingsAt) areDone

end Graph
end PackageFlags
