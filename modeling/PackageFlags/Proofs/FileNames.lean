import PackageFlags.FileSystem
import PackageFlags.Proofs.Outcome
import PackageFlags.Proofs.Paths

/-!
# Names of files

A path that leads to a file ends with the step down to the name of that file. So
whatever can be read has a name, and this name is not empty without its extension
either.
-/

namespace PackageFlags

namespace Path

/-- The name that a segment goes down to is not empty. -/
theorem Step.ne_empty_of_ofSegment?
    {segment name : String}
    (isStep : Step.ofSegment? segment = some (.down name)) :
    name ≠ "" := by
  unfold Step.ofSegment? at isStep
  split at isStep
  · contradiction
  · contradiction
  · simp at isStep
  · rename_i notEmpty _ _
    simp only [Option.some.injEq, Step.down.injEq] at isStep
    exact isStep ▸ notEmpty

/-- A name that is not empty has something in front of its extension. -/
theorem splitExtension_ne_empty
    {name : String}
    (isName : name ≠ "") :
    (splitExtension name).1 ≠ "" := by
  unfold splitExtension
  split
  · exact isName
  · rename_i after before notFirst _
    intro isEmpty
    have noneBefore : before.reverse = [] := by
      simpa using congrArg String.toList isEmpty
    exact notFirst (List.reverse_eq_nil_iff.mp noneBefore)
  · exact isName

/-- A path ends as its segments do, those of the root apart. -/
theorem getLast?_steps
    {path : Path}
    {segments : List String}
    {name : String}
    (areSegments : path.segments = segments ∨ path.segments = "" :: segments)
    (endsDown : (segments.filterMap Step.ofSegment?).getLast? =
      some (.down name)) :
    path.steps.getLast? = some (.down name) := by
  have sameSteps : stepsFrom path.segments = segments.filterMap Step.ofSegment? := by
    rcases areSegments with same | same <;> rw [same] <;> rfl
  rw [steps_eq, List.getLast?_append, sameSteps, endsDown]
  rfl

end Path

namespace FileSystem

variable {files : FileSystem} {path : Path}

/-- Segments are followed from directories only. -/
theorem isDirectoryAt_of_walk
    {start location : Location}
    {segment : String}
    {rest : List String}
    (leads : files.walk start (segment :: rest) = .ok location) :
    files.isDirectoryAt start = true := by
  rw [walk] at leads
  split at leads
  · assumption
  · contradiction

/-- Following segments from a directory leads to a directory, or ends with a step
down to a name. -/
theorem isDirectoryAt_or_endsDown_of_walk
    {start location : Location}
    {segments : List String}
    (isDirectory : files.isDirectoryAt start = true)
    (leads : files.walk start segments = .ok location) :
    files.isDirectoryAt location = true
      ∨ ∃ name, name ≠ ""
          ∧ (segments.filterMap Path.Step.ofSegment?).getLast? =
              some (.down name) := by
  induction segments generalizing start with
  | nil =>
      cases leads
      exact Or.inl isDirectory
  | cons segment rest restLeads =>
      -- what a walk ends with does not depend on the steps in front
      have later : ∀ {next}, files.isDirectoryAt next = true →
          files.walk next rest = .ok location →
          files.isDirectoryAt location = true
            ∨ ∃ name, name ≠ ""
                ∧ ((segment :: rest).filterMap Path.Step.ofSegment?).getLast? =
                    some (.down name) := by
        intro next isNext leadsOn
        rcases restLeads isNext leadsOn with isEnd | ⟨name, isName, endsDown⟩
        · exact Or.inl isEnd
        · refine Or.inr ⟨name, isName, ?_⟩
          cases isStep : Path.Step.ofSegment? segment with
          | none => rwa [List.filterMap_cons_none isStep]
          | some step =>
              rw [List.filterMap_cons_some isStep, List.getLast?_cons, endsDown]
              rfl
      rw [walk, if_pos isDirectory] at leads
      split at leads
      · rename_i name isStep
        split at leads
        · by_cases isInside : files.isDirectoryAt (start ++ [name]) = true
          · exact later isInside leads
          · cases rest with
            | nil =>
                refine Or.inr ⟨name, Path.Step.ne_empty_of_ofSegment? isStep, ?_⟩
                rw [List.filterMap_cons_some isStep]
                rfl
            | cons next more => exact absurd (isDirectoryAt_of_walk leads) isInside
        · contradiction
      · split at leads
        · rename_i isAround
          exact later isAround leads
        · contradiction
      · exact later isDirectory leads

/-- What is read has a file name. -/
theorem exists_fileName?_of_read
    {text : String}
    (isRead : files.read path = .ok text) :
    ∃ name, name ≠ "" ∧ path.fileName? = some name := by
  unfold read entryOf at isRead
  obtain ⟨entry, isEntry, isText⟩ := Outcome.bind_eq_ok.mp isRead
  obtain ⟨location, leads, isAt⟩ := Outcome.bind_eq_ok.mp isEntry
  have notDirectory : files.isDirectoryAt location ≠ true := by
    intro isDirectory
    unfold isDirectoryAt at isDirectory
    split at isDirectory
    · rename_i found
      simp only [found, Except.ok.injEq] at isAt
      simp [← isAt] at isText
    · contradiction
  have ends : ∀ {start segments}, segments ≠ [] →
      files.walk start segments = .ok location →
      path.segments = segments ∨ path.segments = "" :: segments →
      ∃ name, name ≠ "" ∧ path.fileName? = some name := by
    intro start segments isSome walks areSegments
    have isStart : files.isDirectoryAt start = true := by
      cases segments with
      | nil => contradiction
      | cons segment rest => exact isDirectoryAt_of_walk walks
    rcases isDirectoryAt_or_endsDown_of_walk isStart walks with
      isDirectory | ⟨name, isName, endsDown⟩
    · exact absurd isDirectory notDirectory
    · exact ⟨name, isName,
        Path.fileName?_eq_some (Path.getLast?_steps areSegments endsDown)⟩
  unfold locate at leads
  split at leads
  · rename_i next rest isAbsolute
    exact ends (List.cons_ne_nil next rest) leads (Or.inr isAbsolute)
  · contradiction
  · exact ends path.segments_ne_nil leads (Or.inl rfl)

/-- What is read has a name without its extension. -/
theorem exists_fileStem?_of_read
    {text : String}
    (isRead : files.read path = .ok text) :
    ∃ stem, stem ≠ "" ∧ path.fileStem? = some stem := by
  obtain ⟨name, isName, isFileName⟩ := exists_fileName?_of_read isRead
  exact ⟨(Path.splitExtension name).1, Path.splitExtension_ne_empty isName, by
    rw [Path.fileStem?, isFileName, Option.map_some]⟩

end FileSystem
end PackageFlags
