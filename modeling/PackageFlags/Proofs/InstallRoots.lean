import PackageFlags.Proofs.Description.Required
import PackageFlags.Proofs.Paths
import PackageFlags.SearchPath

/-!
# Layout and derivation of installation roots

The search lists directories below an installation root, and a description that is
found in one of them has the root derived from where it was found. The two fit
together: what was put behind the root for the search is just what is taken off
again, even if the root itself ends like a directory of the layout.
-/

namespace PackageFlags

/-! ## Directories of the layout -/

namespace Layout

/-- The directories of the layout go down from the root by two names. -/
theorem steps_of_mem_directories
    {root directory : Path}
    {format : Format}
    (isDirectory : directory ∈ directories root format) :
    ∃ part ∈ [libraries, data],
      directory.steps = root.steps ++ [.down part] ++ [.down format.directory] := by
  have partIsName : ∀ part ∈ [libraries, data], Path.IsName part := by
    intro part isPart
    rcases List.mem_pair.mp isPart with rfl | rfl <;> exact ⟨by decide, by decide⟩
  have formatIsName : Path.IsName format.directory := by
    cases format <;> exact ⟨by decide, by decide⟩
  obtain ⟨part, isPart, rfl⟩ := List.mem_map.mp isDirectory
  refine ⟨part, isPart, ?_⟩
  rw [Path.steps_join_name formatIsName, Path.steps_join_name (partIsName part isPart)]

end Layout

namespace SearchPath

/-- A file in a directory goes down to one name from there. -/
theorem steps_of_candidateIn
    {files : FileSystem}
    {name : String}
    (noSlash : '/' ∉ name.toList)
    {directory : Path}
    {format : Format}
    {candidate : Candidate}
    (isCandidate : candidateIn files name directory format = some candidate) :
    candidate.format = format
      ∧ candidate.path.steps =
          directory.steps ++ [.down (name ++ "." ++ format.extension)] := by
  have isLong : 2 < (name ++ "." ++ format.extension).length := by
    have isExtension : 2 ≤ format.extension.length := by cases format <;> decide
    have isDot : ".".length = 1 := by decide
    rw [String.length_append, String.length_append, isDot]
    omega
  have isName : Path.IsName (name ++ "." ++ format.extension) :=
    Path.IsName.of_length (by cases format <;> simp [Format.extension, noSlash]) isLong
  dsimp only [candidateIn] at isCandidate
  split at isCandidate
  · obtain rfl := Option.some.inj isCandidate
    exact ⟨rfl, Path.steps_join_name isName directory⟩
  · contradiction

end SearchPath

/-! ## Taking directories off -/

namespace InstallRoot

variable {path left right : Path} {init : List Path.Step}

/-- A directory is taken off a path that goes down to it at its end. -/
theorem stripDirectory_eq_some_iff
    {name : String}
    {parent : Path} :
    stripDirectory name path = some parent ↔
      path.parent? = some parent
        ∧ path.steps = parent.steps ++ [.down name] := by
  unfold stripDirectory
  constructor
  · intro isStripped
    split at isStripped
    · rename_i isFileName
      refine ⟨isStripped, ?_⟩
      have endsDown := Path.getLast?_of_fileName? isFileName
      rw [Path.steps_parent? isStripped, List.dropLast_append_getLast? _ endsDown]
    · contradiction
  · rintro ⟨isParent, endsDown⟩
    have isFileName : path.fileName? = some name :=
      Path.fileName?_eq_some (by rw [endsDown, List.getLast?_concat])
    rw [if_pos isFileName, isParent]

/-- Of two names, the one at the end of a path is taken off. -/
theorem exists_stripDirectory_or
    {first second last : String}
    (isEither : last ∈ [first, second])
    (endsDown : path.steps = init ++ [.down last]) :
    ∃ parent,
      (stripDirectory first path <|> stripDirectory second path) = some parent
        ∧ parent.steps = init := by
  obtain ⟨parent, isParent, parentSteps⟩ := Path.exists_parent? endsDown
  have isFileName : path.fileName? = some last :=
    Path.fileName?_eq_some (by rw [endsDown, List.getLast?_concat])
  refine ⟨parent, ?_, parentSteps⟩
  unfold stripDirectory
  rw [isFileName, isParent]
  by_cases isFirst : last = first
  · rw [if_pos (congrArg some isFirst)]
    rfl
  · have isSecond : last = second := by simpa [isFirst] using isEither
    rw [if_neg (by simpa using isFirst), if_pos (congrArg some isSecond)]
    rfl

/-- The root that is derived from a directory of the layout is the one that the
directory was listed below. -/
theorem steps_ofDirectory
    {root directory : Path}
    {format : Format}
    (isDirectory : directory ∈ Layout.directories root format)
    {found : Path}
    (sameSteps : found.steps = directory.steps) :
    (ofDirectory found).steps = root.steps := by
  obtain ⟨part, isPart, directorySteps⟩ := Layout.steps_of_mem_directories isDirectory
  have isFormat : format.directory ∈
      [Format.cps.directory, Format.pkgConfig.directory] := by
    cases format <;> simp
  obtain ⟨inner, isInner, innerSteps⟩ :=
    exists_stripDirectory_or isFormat (sameSteps.trans directorySteps)
  obtain ⟨outer, isOuter, outerSteps⟩ := exists_stripDirectory_or isPart innerSteps
  unfold ofDirectory
  simp only [isInner, Option.getD_some, isOuter, outerSteps]

/-! ## Stated paths -/

/-- The steps that can be taken off a directory are names at its end. -/
theorem exists_stripSteps_iff
    {steps : List Path.Step}
    {directory : Path} :
    (∃ root, stripSteps steps directory = some root) ↔
      (∀ step ∈ steps, ∃ name, step = .down name)
        ∧ steps <+: directory.steps.reverse := by
  induction steps generalizing directory with
  | nil => simp [stripSteps]
  | cons step rest restStripped =>
      cases step with
      | down name =>
          simp only [stripSteps, Option.bind_eq_some_iff, stripDirectory_eq_some_iff,
            List.forall_mem_cons]
          constructor
          · rintro ⟨root, parent, ⟨_, endsDown⟩, isStripped⟩
            obtain ⟨areDown, atEnd⟩ := restStripped.mp ⟨root, isStripped⟩
            refine ⟨⟨⟨name, rfl⟩, areDown⟩, ?_⟩
            rw [endsDown, List.reverse_concat, List.cons_prefix_cons]
            exact ⟨rfl, atEnd⟩
          · rintro ⟨⟨_, areDown⟩, later, isReverse⟩
            have endsDown : directory.steps =
                (rest ++ later).reverse ++ [.down name] := by
              rw [← List.reverse_cons, ← List.cons_append, isReverse,
                List.reverse_reverse]
            obtain ⟨parent, isParent, parentSteps⟩ := Path.exists_parent? endsDown
            have atEnd : rest <+: parent.steps.reverse := by
              rw [parentSteps, List.reverse_reverse]
              exact List.prefix_append rest later
            obtain ⟨root, isStripped⟩ := restStripped.mpr ⟨areDown, atEnd⟩
            exact ⟨root, parent, ⟨isParent, parentSteps ▸ endsDown⟩, isStripped⟩
      | _ => simp [stripSteps]

/-- A path of a description lies below a root: it starts at the placeholder and goes on
with names that the directory of the description ends with. -/
def IsBelowRoot (directory : Path) (cpsPath : String) : Prop :=
  ∃ below, (Path.mk cpsPath).steps = .down rootPlaceholder :: below
    ∧ (∀ step ∈ below, ∃ name, step = .down name)
    ∧ below <:+ directory.steps

/-- A root is derived from the paths that lie below one. -/
theorem succeeds_ofCpsPath
    {cpsPath : String}
    {directory : Path} :
    Outcome.Succeeds (ofCpsPath cpsPath directory) ↔
      IsBelowRoot directory cpsPath := by
  unfold ofCpsPath IsBelowRoot
  split
  · rename_i first below areSteps
    have isStripped : (∃ root, stripSteps below.reverse directory = some root) ↔
        (∀ step ∈ below, ∃ name, step = .down name)
          ∧ below <:+ directory.steps := by
      rw [exists_stripSteps_iff, List.reverse_prefix]
      simp only [List.mem_reverse]
    by_cases isRooted : first = rootPlaceholder
    · simp only [areSteps, isRooted, if_true, List.cons.injEq, true_and,
        exists_eq_left', ← isStripped]
      cases stripSteps below.reverse directory <;> simp [Outcome.Succeeds]
    · simp [areSteps, isRooted]
  · rename_i notDown
    simp only [Outcome.not_succeeds_error, false_iff, not_exists, not_and]
    exact fun below areSteps => absurd areSteps (notDown rootPlaceholder below)

/-! ## Putting the root in -/

/-- A value whose first segment is not the placeholder stays as it is. -/
theorem substitute_of_head?_ne
    {value : String}
    (notFirst : (Path.mk value).segments.head? ≠ some rootPlaceholder)
    (root : Path) :
    substitute root value = value := by
  unfold substitute
  cases areSegments : Text.splitOn '/' value with
  | nil => rfl
  | cons first rest =>
      have isOther : first ≠ rootPlaceholder := by
        simpa [Path.segments, areSegments] using notFirst
      exact if_neg isOther

/-- A value whose first segment is the placeholder is the path of the others below the
root. -/
theorem substitute_eq_below
    {value : String}
    {segments : List String}
    (areSegments : (Path.mk value).segments = rootPlaceholder :: segments)
    (root : Path) :
    Path.mk (substitute root value) = below root segments := by
  have areCut : Text.splitOn '/' value = rootPlaceholder :: segments := areSegments
  unfold substitute
  rw [areCut]
  dsimp only
  rw [if_pos rfl]

/-- Segments below a root take their steps behind those of the root. Below the empty
root a first one may also say to start here. -/
theorem steps_below
    {segments : List String}
    (noSlash : ∀ segment ∈ segments, '/' ∉ segment.toList)
    (root : Path) :
    (below root segments).steps =
      root.steps
        ++ (if root.steps = [] then Path.start (segments.filter (· ≠ "")) else [])
        ++ Path.stepsFrom segments := by
  have areKept := Path.isSegment_of_mem_filter noSlash
  rw [← Path.stepsFrom_filter]
  unfold below
  cases kept : segments.filter (· ≠ "") with
  | nil => simp [Path.start, Path.stepsFrom]
  | cons first rest =>
      rw [kept] at areKept
      have areSegments := Path.segments_joinWith_cons areKept
      have isRelative := Path.isAbsolute_joinWith areKept
      dsimp only
      by_cases isEmpty : root.text = ""
      · rw [Path.join_of_empty isRelative isEmpty, Path.steps_eq, areSegments,
          Path.steps_eq_nil_iff.mpr isEmpty]
        rfl
      · rw [Path.steps_join isRelative isEmpty, areSegments,
          if_neg fun noSteps => isEmpty (Path.steps_eq_nil_iff.mp noSteps),
          List.append_nil]

/-- Roots that are the same path are put in alike. -/
theorem steps_substitute_congr
    (same : left.steps = right.steps)
    (value : String) :
    (Path.mk (substitute left value)).steps =
      (Path.mk (substitute right value)).steps := by
  unfold substitute
  cases areSegments : Text.splitOn '/' value with
  | nil => rfl
  | cons first segments =>
      have noSlash : ∀ segment ∈ segments, '/' ∉ segment.toList :=
        fun segment isSegment => Text.not_mem_of_mem_splitOn
          (areSegments ▸ List.mem_cons_of_mem first isSegment)
      dsimp only
      split
      · exact (steps_below noSlash left).trans
          (same ▸ (steps_below noSlash right).symm)
      · rfl

/-- A path behind the placeholder takes its steps behind those of the root, if it
starts neither at the root of the file tree nor here. -/
theorem steps_substitute_placeholder
    {below : String}
    (notAtRoot : Path.Step.root ∉ (Path.mk below).steps)
    (notHere : Path.Step.here ∉ (Path.mk below).steps)
    (root : Path) :
    (Path.mk (substitute root (rootPlaceholder ++ "/" ++ below))).steps =
      root.steps ++ (Path.mk below).steps := by
  have areSegments : (Path.mk (rootPlaceholder ++ "/" ++ below)).segments =
      rootPlaceholder :: (Path.mk below).segments := by
    have isOnly : Text.splitOn '/' rootPlaceholder = [rootPlaceholder] := by decide
    exact (Text.splitOn_append_cons '/' rootPlaceholder below).trans
      (congrArg (· ++ Text.splitOn '/' below) isOnly)
  have noStart := Path.start_eq_nil notAtRoot notHere
  rw [substitute_eq_below areSegments, steps_below (fun _ => Path.not_mem_of_mem_segments),
    Path.start_filter noStart, Path.steps_eq (Path.mk below), noStart]
  simp

end InstallRoot

/-! ## Descriptions that state no root -/

namespace Description

/-- The text of a description states no installation root: as an object it has
neither member for one, as variables and properties it does not define the
variable. -/
def StatesNoRoot (text : String) : Format -> Prop
  | .cps => ∀ members, (Json.parse text).bind Json.Value.members? = some members →
      members.get? "prefix" = none ∧ members.get? "cps_path" = none
  | .pkgConfig => ∀ known, Properties.parse text = .ok known →
      known.valueOf? "prefix" = none

/-- Without a stated root, a package has the one that is derived from the directory of
its file. -/
theorem root_of_load
    {text : String}
    {format : Format}
    (statesNoRoot : StatesNoRoot text format)
    {source : Path}
    {package : Package}
    (isLoaded : load format text source = .ok package) :
    package.root = InstallRoot.ofDirectory source.directory := by
  cases format with
  | cps =>
      change Cps.load text source = .ok package at isLoaded
      unfold Cps.load at isLoaded
      cases isParsed : Json.parse text with
      | none => simp [isParsed] at isLoaded
      | some value =>
          simp only [isParsed] at isLoaded
          obtain ⟨members, _, isObject, rfl, _, _, _, isRoot, _⟩ :=
            Cps.ofValue_eq_ok isLoaded
          obtain ⟨noPrefix, noPath⟩ := statesNoRoot members (by
            rw [isParsed, Option.bind_some, isObject])
          simp only [Cps.readRoot, Members.optionalString, Members.optional, noPrefix,
            noPath, bind, Except.bind, InstallRoot.derive, Except.ok.injEq] at isRoot
          exact isRoot.symm
  | pkgConfig =>
      obtain ⟨known, isKnown, isRead⟩ := Legacy.exists_ofProperties_of_load isLoaded
      obtain ⟨_, _, _, _, _, _, _, isRoot⟩ := Legacy.ofProperties_eq_ok isRead
      have noPrefix : known.valueOf? "prefix" = none := statesNoRoot known isKnown
      rw [isRoot, noPrefix, Option.map_none, Option.getD_none]

end Description

namespace SearchPath

/-- The directories that the search path lists below an installation root: those for
native descriptions if the environment states the root, and those for both formats if
it is a default. -/
inductive ListedBelow
    (environment : Environment)
    (defaultRoots : List Path)
    (root : Path) : Path -> Format -> Prop
  | stated
      {directory : Path}
      (isStated : root ∈ environment.rootPath.getD [])
      (isDirectory : directory ∈ Layout.directories root .cps) :
      ListedBelow environment defaultRoots root directory .cps
  | byDefault
      {directory : Path}
      {format : Format}
      (isDefault : root ∈ defaultRoots)
      (isDirectory : directory ∈ Layout.directories root format) :
      ListedBelow environment defaultRoots root directory format

variable {environment : Environment} {defaultRoots : List Path}
variable {root directory : Path} {format : Format}

theorem ListedBelow.mem_directories
    (isListed : ListedBelow environment defaultRoots root directory format) :
    (directory, format) ∈ (ofEnvironment environment defaultRoots).directories := by
  unfold ofEnvironment
  cases isListed with
  | stated isStated isDirectory =>
      apply List.mem_append_left
      apply List.mem_append_left
      apply List.mem_append_right
      exact List.mem_flatMap.mpr ⟨root, isStated, List.mem_map_of_mem isDirectory⟩
  | byDefault isDefault isDirectory =>
      apply List.mem_append_right
      refine List.mem_flatMap.mpr ⟨root, isDefault, ?_⟩
      cases format with
      | cps => exact List.mem_append_left _ (List.mem_map_of_mem isDirectory)
      | pkgConfig => exact List.mem_append_right _ (List.mem_map_of_mem isDirectory)

theorem ListedBelow.mem_layout
    (isListed : ListedBelow environment defaultRoots root directory format) :
    directory ∈ Layout.directories root format := by
  cases isListed <;> assumption

/-- Search and derivation agree: a description that is found in a directory which the
search path lists below an installation root, and that states no root of its own, has
the same root, as a path. What the description says relative to its root is resolved
as under that root, and a path behind the placeholder takes its steps from there. -/
theorem root_of_listedBelow
    (isListed : ListedBelow environment defaultRoots root directory format)
    {name : String}
    (noSlash : '/' ∉ name.toList)
    {files : FileSystem}
    {candidate : Candidate}
    (isCandidate : candidateIn files name directory format = some candidate)
    {text : String}
    (isRead : files.read candidate.path = .ok text)
    (statesNoRoot : Description.StatesNoRoot text candidate.format)
    {package : Package}
    (isLoaded : Description.loadFile files candidate.format candidate.path =
      .ok package) :
    (directory, format) ∈ (ofEnvironment environment defaultRoots).directories
      ∧ package.root.steps = root.steps
      ∧ (∀ value,
          (Path.mk (InstallRoot.substitute package.root value)).steps =
            (Path.mk (InstallRoot.substitute root value)).steps)
      ∧ ∀ below,
          Path.Step.root ∉ (Path.mk below).steps →
          Path.Step.here ∉ (Path.mk below).steps →
          (Path.mk (InstallRoot.substitute package.root
            (rootPlaceholder ++ "/" ++ below))).steps =
              root.steps ++ (Path.mk below).steps := by
  obtain ⟨_, candidateSteps⟩ := steps_of_candidateIn noSlash isCandidate
  have loadedText : Description.load candidate.format text candidate.path =
      .ok package := by
    simpa only [Description.loadFile, isRead] using isLoaded
  have sameRoot : package.root.steps = root.steps := by
    rw [Description.root_of_load statesNoRoot loadedText]
    exact InstallRoot.steps_ofDirectory isListed.mem_layout
      (Path.steps_directory candidateSteps)
  refine ⟨isListed.mem_directories, sameRoot,
    InstallRoot.steps_substitute_congr sameRoot, fun below notAtRoot notHere => ?_⟩
  rw [InstallRoot.steps_substitute_placeholder notAtRoot notHere, sameRoot]

/-- A description that states no root. -/
def rootless : String :=
  "\x7b\"name\": \"a\", \"cps_version\": \"0.10.0\", " ++
    "\"components\": \x7b\"c\": \x7b\"type\": \"interface\"\x7d\x7d\x7d"

/-- A tree with that description below a root that is itself a directory for
libraries. -/
def nestedLibraries : FileSystem where
  entries := [
    (["lib"], .directory),
    (["lib", "lib"], .directory),
    (["lib", "lib", "cps"], .directory),
    (["lib", "lib", "cps", "a.cps"], .file rootless.toUTF8)]

/-- A root that is named like a directory of the layout, and written with a slash at
its end, is derived as such. -/
theorem root_of_listedBelow_nestedLibraries :
    ∃ package,
      Description.loadFile nestedLibraries .cps ⟨"lib/lib/cps/a.cps"⟩ = .ok package
        ∧ package.root.steps = [.down "lib"]
        ∧ (Path.mk (InstallRoot.substitute package.root "@prefix@/include")).steps =
            [.down "lib", .down "include"] := by
  have isListed : ListedBelow { rootPath := some [⟨"lib/"⟩] } [] ⟨"lib/"⟩
      ⟨"lib/lib/cps"⟩ .cps :=
    .stated List.mem_cons_self (by decide +kernel)
  have isCandidate : candidateIn nestedLibraries "a" ⟨"lib/lib/cps"⟩ .cps =
      some ⟨⟨"lib/lib/cps/a.cps"⟩, .cps⟩ := by
    decide +kernel
  have isRead : nestedLibraries.read ⟨"lib/lib/cps/a.cps"⟩ = .ok rootless :=
    Outcome.eq_ok_of_toOption (by decide +kernel)
  have noMembers : ((Json.parse rootless).bind Json.Value.members?).all (fun members =>
      (members.get? "prefix").isNone && (members.get? "cps_path").isNone) = true := by
    decide +kernel
  have statesNoRoot : Description.StatesNoRoot rootless .cps := by
    intro members areMembers
    simpa [areMembers] using noMembers
  obtain ⟨package, isLoaded⟩ := Outcome.eq_ok_of_isOk
    (by decide +kernel : (Description.loadFile nestedLibraries .cps
      ⟨"lib/lib/cps/a.cps"⟩).isOk = true)
  obtain ⟨_, rootSteps, _, placed⟩ := root_of_listedBelow isListed (by decide)
    isCandidate isRead statesNoRoot isLoaded
  refine ⟨package, isLoaded, rootSteps.trans (by decide), ?_⟩
  exact (placed "include" (by decide) (by decide)).trans (by decide)

end SearchPath
end PackageFlags
