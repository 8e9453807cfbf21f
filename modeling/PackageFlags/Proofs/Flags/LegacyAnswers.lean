import PackageFlags.Proofs.Flags.Tokens
import PackageFlags.Proofs.Registry.Candidates

/-!
# Answers from pkg-config descriptions

A package of variables and properties that requires nothing can always be used with its
defaults, and its flags are printed as the tokens that its description states them
with.
-/

namespace PackageFlags

/-! ## Packages with one component -/

namespace Selection

variable {graph : Graph} {root : NodeId} {package : Package} {name : String}
variable {component : Component}

/-- A component that refers to nothing is all that is selected when it is asked for. -/
theorem visit_of_refersToNothing
    (isPackage : graph.package? root = some package)
    {wanted : Wanted}
    (isWanted : wanted.names package = [name])
    (isComponent : package.components.get? name = some component)
    (refersToNothing : component.requires = []) :
    visit graph empty root wanted = .ok (empty.select root [name], []) := by
  have staysInside : Wanted.internalNames package component = [] := by
    simp [Wanted.internalNames, refersToNothing]
  have isAdded : additions package [] [name] = .ok [name] := by
    rw [additions, if_neg List.not_mem_nil]
    split
    · rename_i isMissing
      rw [isComponent] at isMissing
      contradiction
    · rename_i found isFound
      cases isComponent.symm.trans isFound
      rw [staysInside, List.append_nil, additions]
  have noDemands : demandsOf root package [name] = [] := by
    simp [demandsOf, externalReferences, isComponent, refersToNothing,
      Wanted.byDependency]
  have noneBefore : empty.components root = [] := rfl
  simp only [visit, isPackage, isWanted, noneBefore, isAdded, noDemands]

/-- A node that uses no dependency is ordered alone. -/
theorem flatten_of_usesNothing
    (isNode : root ∈ graph.nodes)
    {selection : Selection}
    (usesNothing : selection.used = []) :
    graph.flatten selection root = [root] := by
  have noneUsed : selection.usedChildren graph root = [] := by
    simp [usedChildren, uses, usesNothing]
  rw [Graph.flatten, Order.walk, if_pos ⟨isNode, List.not_mem_nil⟩, noneUsed,
    List.map_nil, List.nil_append, Order.walk, Order.walk]

end Selection

namespace Query

/-- A query for the only default component of a package, which refers to nothing, gets
the settings of that component. -/
theorem answerAt_of_refersToNothing
    {query : Query}
    (wantsDefaults : query.wanted = { defaults := true })
    {graph : Graph}
    {root : NodeId}
    {package : Package}
    (isPackage : graph.package? root = some package)
    {name : String}
    (isDefault : package.defaults = [name])
    {component : Component}
    (isComponent : package.components.get? name = some component)
    (refersToNothing : component.requires = [])
    {settings : Settings}
    (areSettings : component.settings? (query.root.getD package.root) =
      some settings) :
    ∃ version, query.answerAt graph root =
      { warnings := [], outcome := .ok { settings with version } } := by
  have isVisited := Selection.visit_of_refersToNothing isPackage
    (by rw [wantsDefaults]; simpa [Wanted.names] using isDefault :
      query.wanted.names package = [name]) isComponent refersToNothing
  have isAlone : graph.flatten (Selection.empty.select root [name]) root = [root] :=
    Selection.flatten_of_usesNothing (Graph.mem_nodes_of_package? isPackage) rfl
  have isSelected : (Selection.empty.select root [name]).components root = [name] :=
    Selection.components_select Selection.empty root [name]
  have contributes : graph.settingsAt (Selection.empty.select root [name]) query.root
      root = .ok settings := by
    simp only [Graph.settingsAt, isPackage, isSelected, List.mapM_cons, List.mapM_nil,
      Package.settingsOf, isComponent, areSettings]
    exact congrArg Except.ok settings.concat_singleton
  have isMerged : graph.aggregate (Selection.empty.select root [name]) [root] query.root =
      .ok { settings with version := graph.versionOf [root] } := by
    rw [Graph.aggregate, List.mapM_cons, contributes]
    exact congrArg (fun merged => Except.ok (Flags.mk merged (graph.versionOf [root])))
      settings.concat_singleton
  refine ⟨graph.versionOf [root], ?_⟩
  simp only [answerAt, Selection.propagate, isVisited, Selection.meet, isAlone, isMerged]

end Query

/-! ## The package of a name -/

namespace Registry

/-- A name stands for a package: the one that the registry has for it, or else that of
its first candidate that works on its own. -/
inductive StandsFor
    (world : World)
    (registry : Registry)
    (name : String)
    (package : Package) : Prop
  | loaded
      {id : NodeId}
      (isCached : registry.find? name = some id)
      (isPackage : registry.graph.package? id = some package) :
      StandsFor world registry name package
  | found
      {tried untried : List Candidate}
      {candidate : Candidate}
      (isNew : registry.find? name = none)
      (areCandidates : world.search.candidates world.files name =
        .ok (tried ++ candidate :: untried))
      (haveFailed : ∀ other ∈ tried, ∃ failure,
        Trial.alone world registry name {} other = .error failure)
      (isRead : Description.loadFile world.files candidate.format candidate.path =
        .ok package) :
      StandsFor world registry name package

variable {world : World} {registry : Registry} {name : String} {package : Package}

/-- A candidate whose package requires nothing works on its own. -/
theorem Trial.alone_of_requiresNothing
    (requiresNothing : package.requires.entries = [])
    {candidate : Candidate}
    (isRead : Description.loadFile world.files candidate.format candidate.path =
      .ok package) :
    Trial.alone world registry name {} candidate =
      .ok ((registry.enter name package).connect registry.graph.fresh [],
        registry.graph.fresh) := by
  rw [alone, ofCandidate, isRead]
  simp only [bind, Except.bind, requiresNothing]
  rfl

/-- The node of a package that requires nothing is built when its name is asked for. -/
theorem StandsFor.exists_build
    (standsFor : StandsFor world registry name package)
    (consistent : Consistent registry)
    (requiresNothing : package.requires.entries = []) :
    ∃ grown id, build world registry name {} = (grown, .ok id)
      ∧ grown.graph.package? id = some package := by
  cases standsFor with
  | loaded isCached isPackage =>
      refine ⟨registry, _, ?_, isPackage⟩
      simp only [build_eq_findOrLoad consistent, findOrLoad, isCached, reuse, isPackage]
      rfl
  | found isNew areCandidates haveFailed isRead =>
      refine ⟨(registry.enter name package).connect registry.graph.fresh [],
        registry.graph.fresh, ?_, registry.graph.package?_add_fresh package⟩
      apply Trial.eq_of_ofAttempt_eq_ok
      rw [trial_of_build consistent isNew {} areCandidates, List.map_append,
        List.map_cons, Trial.alone_of_requiresNothing requiresNothing isRead,
        Trial.first_append_ok]
      · rfl
      · intro outcome isOutcome
        obtain ⟨other, isTried, rfl⟩ := List.mem_map.mp isOutcome
        exact haveFailed other isTried

end Registry

/-! ## Answers -/

namespace Description
namespace Legacy

/-- The only component of a package is declared as the one that is used by default. -/
theorem defaultComponents_of_ofProperties
    {known : Properties}
    {source : Path}
    {package : Package}
    (isRead : ofProperties known source = .ok package) :
    package.defaultComponents = some [package.name] := by
  unfold ofProperties at isRead
  split at isRead
  · contradiction
  · obtain ⟨entries, _, same⟩ := Outcome.bind_eq_ok.mp isRead
    cases same
    rfl

/-- The only component of a package is the one that is used by default. -/
theorem defaults_of_ofProperties
    {known : Properties}
    {source : Path}
    {package : Package}
    (isRead : ofProperties known source = .ok package) :
    package.defaults = [package.name] := by
  rw [Package.defaults, defaultComponents_of_ofProperties isRead, Option.getD_some]

/-- The flags of a description that requires nothing survive being read, resolved with
the defaults and printed. For every language the tokens of `Cflags` are printed as they
are, those that are neither include directories nor definitions first, and the tokens of
`Libs` with the directories to search first and the libraries next. Tokens of one
category keep their order, and none is lost, added, changed or moved to another
category. -/
theorem resolve_prints_tokens
    (calls : List (World × Call))
    {world : World}
    (query : Query)
    (onlyDefaults : query.components = [])
    (wantsDefaults : query.useDefaults = true)
    {text : String}
    {source : Path}
    {package : Package}
    (isLoaded : load text source = .ok package)
    {known : Properties}
    (isKnown : Properties.parse text = .ok known)
    (requiresNothing : RequiredPackage.parseList (known.property "Requires") = .ok [])
    (standsFor : Registry.StandsFor world (Session.run calls).registry query.name package)
    (notPlaced : ∀ directory, "-I" ++ directory ∈ Text.words (known.property "Cflags") →
      (Path.mk directory).segments.head? ≠ some rootPlaceholder)
    (notMarked : ∀ symbol, "-D!" ++ symbol ∉ Text.words (known.property "Cflags")) :
    ∃ flags, (query.resolve world (Session.run calls).registry).2 =
        { warnings := [], outcome := .ok flags }
      ∧ ∀ options, options.versionOnly = false →
          flags.line options = Text.joinWith " "
            (compilerTokens options (Text.words (known.property "Cflags"))
              ++ linkerTokens options (Text.words (known.property "Libs")))
          ∧ (options.compileFlags = true → options.includes = true →
              options.definitions = true →
              (compilerTokens options (Text.words (known.property "Cflags"))).Perm
                (Text.words (known.property "Cflags")))
          ∧ (options.searchDirectories = true → options.links = true →
              options.otherLinkFlags = true →
              (linkerTokens options (Text.words (known.property "Libs"))).Perm
                (Text.words (known.property "Libs"))) := by
  obtain ⟨read, isRead, ofRead⟩ := exists_ofProperties_of_load isLoaded
  cases isKnown.symm.trans isRead
  obtain ⟨_, entries, areEntries, _, _, areComponents, areRequired, _⟩ :=
    ofProperties_eq_ok ofRead
  cases requiresNothing.symm.trans areEntries
  obtain ⟨grown, id, isBuilt, isPackage⟩ := standsFor.exists_build
    (Session.run_sound calls).consistent (by rw [areRequired]; rfl)
  have isComponent : package.components.get? package.name =
      some (component known package.name []) := by
    rw [areComponents, NameMap.get?_insert, if_pos rfl]
  have isWanted : query.wanted = { defaults := true } := by
    rw [Query.wanted, onlyDefaults, wantsDefaults]
  -- an interface has settings below every root, whether or not one is given
  obtain ⟨settings, areSettings⟩ : ∃ settings,
      (component known package.name []).settings? (query.root.getD package.root) =
        some settings := ⟨_, rfl⟩
  obtain ⟨version, isAnswered⟩ := Query.answerAt_of_refersToNothing isWanted isPackage
    (defaults_of_ofProperties ofRead) isComponent rfl areSettings
  refine ⟨{ settings with version }, ?_, fun options notVersion => ⟨?_,
    fun compileFlags includes definitions =>
      compilerTokens_perm compileFlags includes definitions _,
    fun searchDirectories links otherLinkFlags =>
      linkerTokens_perm searchDirectories links otherLinkFlags _⟩⟩
  · rw [Query.resolve, onlyDefaults, isBuilt]
    exact isAnswered
  · rw [Flags.line, if_neg (by simp [notVersion]),
      printed_of_component notPlaced notMarked areSettings]

/-- A description with flags of all categories, in no order. -/
def mixedFlags : String :=
  "Name: m\nCflags: -DA=1=2 -I/x -pthread -D -I -UB\nLibs: -z -lm -Lq -l\n"

/-- A tree with that description. -/
def mixedWorld : World where
  files := {
    entries := [
      (["p"], .directory),
      (["p", "m.pc"], .file mixedFlags.toUTF8)] }
  search := { directories := [(⟨"p"⟩, .pkgConfig)] }

/-- What is printed of that description with all categories. -/
theorem resolve_prints_tokens_mixedWorld :
    ∃ flags, (Query.resolve { name := "m" } mixedWorld .empty).2.outcome = .ok flags
      ∧ flags.line {
            compileFlags := true, includes := true, definitions := true,
            searchDirectories := true, links := true, otherLinkFlags := true,
            language := .cxx } =
          "-pthread -I/x -I -DA=1=2 -D -UB -Lq -lm -l -z" := by
  obtain ⟨package, isLoaded⟩ := Outcome.eq_ok_of_isOk
    (by decide +kernel : (load mixedFlags ⟨"p/m.pc"⟩).isOk = true)
  have areProperties : (Properties.parse mixedFlags).map (fun known =>
      (known.property "Cflags", known.property "Libs", known.property "Requires")) =
        .ok ("-DA=1=2 -I/x -pthread -D -I -UB", "-z -lm -Lq -l", "") :=
    Outcome.eq_ok_of_toOption (by decide +kernel)
  obtain ⟨known, isKnown, same⟩ := Outcome.map_eq_ok.mp areProperties
  obtain ⟨isCompiler, isLinker, isRequires⟩ : known.property "Cflags" =
      "-DA=1=2 -I/x -pthread -D -I -UB" ∧ known.property "Libs" = "-z -lm -Lq -l"
        ∧ known.property "Requires" = "" := by
    simpa using same
  have requiresNothing : RequiredPackage.parseList (known.property "Requires") =
      .ok [] := by
    rw [isRequires]
    exact Outcome.eq_ok_of_toOption (by decide)
  have isRead : loadFile mixedWorld.files .pkgConfig ⟨"p/m.pc"⟩ = .ok package := by
    rw [loadFile, (Outcome.eq_ok_of_toOption (by decide +kernel) :
      mixedWorld.files.read ⟨"p/m.pc"⟩ = .ok mixedFlags)]
    exact isLoaded
  have standsFor : Registry.StandsFor mixedWorld (Session.run []).registry "m" package :=
    .found rfl (Outcome.eq_ok_of_toOption (by decide +kernel) :
      mixedWorld.search.candidates mixedWorld.files "m" =
        .ok ([] ++ ⟨⟨"p/m.pc"⟩, .pkgConfig⟩ :: [])) nofun isRead
  have notPlaced : ∀ directory, "-I" ++ directory ∈ Text.words (known.property "Cflags") →
      (Path.mk directory).segments.head? ≠ some rootPlaceholder := by
    have noneIs : ((Text.words "-DA=1=2 -I/x -pthread -D -I -UB").all fun token =>
        (Text.dropStart "-I" token).all fun directory =>
          (Path.mk directory).segments.head? ≠ some rootPlaceholder) = true := by
      decide +kernel
    intro directory isToken
    have isOther := List.all_eq_true.mp noneIs _ (isCompiler ▸ isToken)
    rw [Text.dropStart_eq_some_iff.mpr rfl] at isOther
    simpa using isOther
  have notMarked : ∀ symbol,
      "-D!" ++ symbol ∉ Text.words (known.property "Cflags") := by
    have noneIs : ((Text.words "-DA=1=2 -I/x -pthread -D -I -UB").all fun token =>
        (Text.dropStart "-D!" token).isNone) = true := by
      decide +kernel
    intro symbol isToken
    have isOther := List.all_eq_true.mp noneIs _ (isCompiler ▸ isToken)
    rw [Text.dropStart_eq_some_iff.mpr rfl] at isOther
    contradiction
  obtain ⟨flags, isAnswered, prints⟩ :=
    resolve_prints_tokens [] { name := "m" } rfl rfl isLoaded isKnown requiresNothing
      standsFor notPlaced notMarked
  refine ⟨flags, congrArg Answer.outcome isAnswered, ?_⟩
  rw [(prints _ rfl).1, isCompiler, isLinker]
  decide +kernel

end Legacy
end Description
end PackageFlags
