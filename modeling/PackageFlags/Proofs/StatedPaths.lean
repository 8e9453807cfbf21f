import PackageFlags.Proofs.InstallRoots

/-!
# Stated paths of descriptions

A description may state its own path below the installation root, behind the
placeholder. The root is then the directory that it is found in without the stated path
at its end. This takes the stated path back exactly: with the root in place of the
placeholder it leads to that directory again.
-/

namespace PackageFlags

/-! ## Paths that start with a step down -/

namespace Path

variable {path : Path} {below : List Step}

/-- A segment goes up or down, if it takes a step. -/
theorem Step.eq_up_or_down
    {segment : String}
    {step : Step}
    (isStep : Step.ofSegment? segment = some step) :
    step = .up ∨ step = .down segment := by
  unfold Step.ofSegment? at isStep
  split at isStep
  case h_1 => contradiction
  case h_2 => contradiction
  case h_3 => exact Or.inl (Option.some.inj isStep).symm
  case h_4 => exact Or.inr (Option.some.inj isStep).symm

/-- The first segment of a path that starts with a step down is the name, and the other
segments take the steps after it. -/
theorem segments_of_steps
    {name : String}
    (startsDown : path.steps = .down name :: below) :
    ∃ rest, path.segments = name :: rest ∧ stepsFrom rest = below := by
  rw [steps_eq] at startsDown
  cases areSegments : path.segments with
  | nil => exact absurd areSegments path.segments_ne_nil
  | cons first rest =>
      rw [areSegments] at startsDown
      have notHere : first ≠ "." := by
        rintro rfl
        simp [start] at startsDown
      have notAtRoot : ¬ (first = "" ∧ rest ≠ []) := by
        intro isRoot
        simp [start, isRoot] at startsDown
      have noStart : start (first :: rest) = [] := by
        simp only [start, if_neg notHere, if_neg notAtRoot]
      rw [noStart, List.nil_append, ← List.singleton_append, stepsFrom_append]
        at startsDown
      cases isStep : Step.ofSegment? first with
      | none =>
          have isEmpty : first = "" :=
            (Step.ofSegment?_eq_none_iff.mp isStep).resolve_right notHere
          have noRest : rest = [] := by simpa [isEmpty] using notAtRoot
          simp [stepsFrom, isStep, noRest] at startsDown
      | some step =>
          have isFirst : stepsFrom [first] = [step] := by simp [stepsFrom, isStep]
          rw [isFirst, List.singleton_append] at startsDown
          obtain ⟨rfl, areBelow⟩ := List.cons.inj startsDown
          rcases Step.eq_up_or_down isStep with isUp | isDown
          · contradiction
          · rw [Step.down.inj isDown]
            exact ⟨rest, rfl, areBelow⟩

/-- After a step down, a path that does not go up goes down only. -/
theorem forall_down_iff
    {name : String}
    (startsDown : path.steps = .down name :: below) :
    (∀ step ∈ below, ∃ other, step = .down other) ↔ .up ∉ below := by
  constructor
  · intro allDown goesUp
    obtain ⟨other, isDown⟩ := allDown .up goesUp
    contradiction
  · intro notUp step isBelow
    obtain ⟨rest, _, rfl⟩ := segments_of_steps startsDown
    obtain ⟨segment, _, isStep⟩ := List.mem_filterMap.mp isBelow
    rcases Step.eq_up_or_down isStep with rfl | isDown
    · exact absurd isBelow notUp
    · exact ⟨segment, isDown⟩

end Path

/-! ## Taking a stated path off and putting it back -/

namespace InstallRoot

variable {directory root : Path}

/-- What is left when steps are taken off a directory, and the steps from the first one
on, make up the directory. -/
theorem steps_of_stripSteps
    {steps : List Path.Step}
    (isStripped : stripSteps steps directory = some root) :
    directory.steps = root.steps ++ steps.reverse := by
  induction steps generalizing directory with
  | nil =>
      obtain rfl := Option.some.inj isStripped
      rw [List.reverse_nil, List.append_nil]
  | cons step rest restSteps =>
      cases step with
      | down name =>
          obtain ⟨parent, isParent, isRest⟩ := Option.bind_eq_some_iff.mp isStripped
          have endsDown := (stripDirectory_eq_some_iff.mp isParent).2
          rw [endsDown, restSteps isRest, List.reverse_cons, List.append_assoc]
      | root => contradiction
      | here => contradiction
      | up => contradiction

/-- The directory of a description goes down from the root that is derived for it by the
steps that the description states. -/
theorem steps_of_ofCpsPath
    {cpsPath : String}
    (isDerived : ofCpsPath cpsPath directory = .ok root) :
    ∃ below, (Path.mk cpsPath).steps = .down rootPlaceholder :: below
      ∧ directory.steps = root.steps ++ below := by
  unfold ofCpsPath at isDerived
  split at isDerived
  · rename_i first below areSteps
    split at isDerived
    · rename_i isRooted
      split at isDerived
      · rename_i stripped isStripped
        obtain rfl := Except.ok.inj isDerived
        refine ⟨below, isRooted ▸ areSteps, ?_⟩
        rw [steps_of_stripSteps isStripped, List.reverse_reverse]
      · contradiction
    · contradiction
  · contradiction

/-- What is wrong with a path that no root is derived from. -/
theorem ofCpsPath_eq_error
    {cpsPath : String}
    {flaw : Description.Flaw}
    (fails : ofCpsPath cpsPath directory = .error flaw) :
    flaw =
      if (Path.mk cpsPath).steps.head? = some (.down rootPlaceholder) then
        .mismatchedPath cpsPath directory.text
      else
        .unrootedPath cpsPath := by
  unfold ofCpsPath at fails
  split at fails
  · rename_i first below areSteps
    rw [areSteps, List.head?_cons]
    split at fails
    · rename_i isRooted
      rw [if_pos (by rw [isRooted])]
      split at fails
      · contradiction
      · exact (Except.error.inj fails).symm
    · rename_i notRooted
      rw [if_neg (by simpa using notRooted)]
      exact (Except.error.inj fails).symm
  · rename_i notDown
    have notRooted :
        ¬ (Path.mk cpsPath).steps.head? = some (.down rootPlaceholder) := by
      intro isRooted
      obtain ⟨below, areSteps⟩ := List.head?_eq_some_iff.mp isRooted
      exact notDown rootPlaceholder below areSteps
    rw [if_neg notRooted]
    exact (Except.error.inj fails).symm

/-- Without segments that say to stay, what follows the placeholder takes its steps
behind those of any root. -/
theorem steps_substitute_of_steps
    {value : String}
    {below : List Path.Step}
    (startsDown : (Path.mk value).steps = .down rootPlaceholder :: below)
    (notHere : "." ∉ (Path.mk value).segments)
    (root : Path) :
    (Path.mk (substitute root value)).steps = root.steps ++ below := by
  obtain ⟨rest, areSegments, rfl⟩ := Path.segments_of_steps startsDown
  have noSlash : ∀ segment ∈ rest, '/' ∉ segment.toList := fun segment isSegment =>
    Path.not_mem_of_mem_segments (areSegments ▸ List.mem_cons_of_mem _ isSegment)
  have noStart : Path.start (rest.filter (· ≠ "")) = [] := by
    cases areKept : rest.filter (· ≠ "") with
    | nil => rfl
    | cons first others =>
        have isKept : first ∈ rest.filter (· ≠ "") := areKept ▸ List.mem_cons_self
        obtain ⟨isSegment, notEmpty⟩ : first ∈ rest ∧ first ≠ "" := by
          simpa using isKept
        have isOther : first ≠ "." := by
          rintro rfl
          exact notHere (areSegments ▸ List.mem_cons_of_mem _ isSegment)
        simp [Path.start, isOther, notEmpty]
  rw [substitute_eq_below areSegments, steps_below noSlash, noStart]
  simp

/-- A stated path is inverted exactly. A root is derived just when the path starts at
the placeholder, does not go up after it, and goes on with what the directory of the
description ends with. The root takes the other steps of the directory. Otherwise the
description is refused, as unrooted if the path does not start at the placeholder, and
else as found in a directory that the path does not match. With the root in place of
the placeholder, a path without segments that say to stay takes the steps of the
directory. -/
theorem derive_inverts (cpsPath : String) (source : Path) :
    ((∃ root, derive (some cpsPath) source = .ok root) ↔
        ∃ below, (Path.mk cpsPath).steps = .down rootPlaceholder :: below
          ∧ .up ∉ below ∧ below <:+ source.directory.steps)
      ∧ (∀ root, derive (some cpsPath) source = .ok root →
          (∃ below, (Path.mk cpsPath).steps = .down rootPlaceholder :: below
            ∧ source.directory.steps = root.steps ++ below)
          ∧ ("." ∉ (Path.mk cpsPath).segments →
              (Path.mk (substitute root cpsPath)).steps = source.directory.steps))
      ∧ ∀ flaw, derive (some cpsPath) source = .error flaw →
          flaw =
              (if (Path.mk cpsPath).steps.head? = some (.down rootPlaceholder) then
                .mismatchedPath cpsPath source.directory.text
              else
                .unrootedPath cpsPath)
            ∧ (Failure.invalidDescription source.text flaw).kind = .schema := by
  refine ⟨?_, ?_, fun flaw fails => ⟨ofCpsPath_eq_error fails, rfl⟩⟩
  · have isDerived : (∃ root, derive (some cpsPath) source = .ok root) ↔
        IsBelowRoot source.directory cpsPath := succeeds_ofCpsPath
    refine isDerived.trans ?_
    refine exists_congr fun below => and_congr_right fun startsDown => ?_
    rw [Path.forall_down_iff startsDown]
  · intro root isDerived
    obtain ⟨below, startsDown, directorySteps⟩ := steps_of_ofCpsPath isDerived
    refine ⟨⟨below, startsDown, directorySteps⟩, fun notHere => ?_⟩
    rw [steps_substitute_of_steps startsDown notHere, directorySteps]

/-- Below the working directory the root is the empty path, and the stated path leads
back to the directory however its slashes are written. -/
theorem derive_inverts_relative :
    ∃ root, derive (some "@prefix@/lib//cps/") ⟨"lib/cps/a.cps"⟩ = .ok root
      ∧ root.steps = []
      ∧ (Path.mk (substitute root "@prefix@/lib//cps/")).steps =
          [.down "lib", .down "cps"] := by
  have statedSteps : (Path.mk "@prefix@/lib//cps/").steps =
      [.down rootPlaceholder, .down "lib", .down "cps"] := by
    decide +kernel
  have directorySteps : (Path.mk "lib/cps/a.cps").directory.steps =
      [.down "lib", .down "cps"] := by
    decide +kernel
  obtain ⟨isDerived, inverts, _⟩ :=
    derive_inverts "@prefix@/lib//cps/" ⟨"lib/cps/a.cps"⟩
  rw [directorySteps] at isDerived inverts
  obtain ⟨root, hasRoot⟩ := isDerived.mpr
    ⟨_, statedSteps, by decide, List.suffix_rfl⟩
  obtain ⟨⟨below, startsDown, isWhole⟩, leadsBack⟩ := inverts root hasRoot
  obtain rfl := (List.cons.inj (startsDown.symm.trans statedSteps)).2
  exact ⟨root, hasRoot, List.append_left_eq_self.mp isWhole.symm,
    leadsBack (by decide +kernel)⟩

/-- A segment that says to stay is kept behind the empty root. -/
example :
    substitute ⟨""⟩ "@prefix@/./lib" = "./lib"
      ∧ (Path.mk "./lib").steps = [.here, .down "lib"] := by
  decide +kernel

end InstallRoot
end PackageFlags
