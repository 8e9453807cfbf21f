import Mathlib.Data.List.DropRight
import PackageFlags.Path

/-!
# Joining paths and leaving them

Two paths are the same when they take the same steps. Joining a path to another one
puts its steps behind those of the other, and the parent of a path takes all of its
steps but the last, however either of them is written.
-/

namespace PackageFlags
namespace Path

variable {segments kept : List String} {base path parent : Path}

/-- The segments that take no step are the empty one and the one that says to stay. -/
theorem Step.ofSegment?_eq_none_iff {segment : String} :
    Step.ofSegment? segment = none ↔ segment = "" ∨ segment = "." := by
  unfold Step.ofSegment?
  split <;> simp_all

/-- The step that segments start with if they start at the root or here. -/
def start : List String -> List Step
  | [] => []
  | first :: rest =>
      if first = "." then [.here]
      else if first = "" ∧ rest ≠ [] then [.root]
      else []

/-- The steps that segments take from where they start. -/
def stepsFrom (segments : List String) : List Step :=
  segments.filterMap Step.ofSegment?

theorem steps_eq (path : Path) :
    path.steps = start path.segments ++ stepsFrom path.segments := by
  unfold steps
  cases path.segments with
  | nil => rfl
  | cons first rest =>
      by_cases isHere : first = "."
      · subst isHere
        simp [start, stepsFrom, Step.ofSegment?]
      · by_cases isEmpty : first = ""
        · subst isEmpty
          cases rest <;> simp [start, stepsFrom, Step.ofSegment?]
        · simp [start, stepsFrom, isHere, isEmpty]

@[simp] theorem stepsFrom_append (before after : List String) :
    stepsFrom (before ++ after) = stepsFrom before ++ stepsFrom after :=
  List.filterMap_append

/-- Segments start as those do that they go on from. -/
theorem start_append
    (isSome : segments ≠ [])
    (notEmpty : segments ≠ [""])
    (more : List String) :
    start (segments ++ more) = start segments := by
  cases segments with
  | nil => contradiction
  | cons first rest =>
      unfold start
      rw [List.cons_append]
      cases rest with
      | nil =>
          have notIdle : first ≠ "" := fun isEmpty => notEmpty (isEmpty ▸ rfl)
          simp [notIdle]
      | cons next others => simp

/-- How segments go on makes no difference to their start. -/
theorem start_append_congr
    (isSome : segments ≠ [])
    {left right : List String}
    (isLeft : left ≠ [])
    (isRight : right ≠ []) :
    start (segments ++ left) = start (segments ++ right) := by
  cases segments with
  | nil => contradiction
  | cons first rest => simp [start, isLeft, isRight]

theorem segments_ne_nil (path : Path) : path.segments ≠ [] := by
  simp [segments, Text.splitOn, Text.pieces_ne_nil]

theorem not_mem_of_mem_segments
    {segment : String}
    (isSegment : segment ∈ path.segments) :
    '/' ∉ segment.toList :=
  Text.not_mem_of_mem_splitOn isSegment

/-- Segments that are joined with slashes are those of the path. -/
theorem segments_joinWith
    (isSome : segments ≠ [])
    (noSlash : ∀ segment ∈ segments, '/' ∉ segment.toList) :
    (Path.mk (Text.joinWith "/" segments)).segments = segments :=
  Text.splitOn_joinWith isSome noSlash

/-- A text between slashes that is not empty. -/
structure IsSegment (segment : String) : Prop where
  notEmpty : segment ≠ ""
  noSlash : '/' ∉ segment.toList

/-- Some segments that are joined with slashes are those of the path. -/
theorem segments_joinWith_cons
    {first : String}
    {rest : List String}
    (areSegments : ∀ segment ∈ first :: rest, IsSegment segment) :
    (Path.mk (Text.joinWith "/" (first :: rest))).segments = first :: rest := by
  apply segments_joinWith (List.cons_ne_nil first rest)
  intro segment isHere
  exact (areSegments segment isHere).noSlash

/-- Segments that are joined with slashes do not start at the root. -/
theorem isAbsolute_joinWith
    (areSegments : ∀ segment ∈ segments, IsSegment segment) :
    (Path.mk (Text.joinWith "/" segments)).isAbsolute = false := by
  cases segments with
  | nil => decide
  | cons first rest =>
      have notEmpty : first ≠ "" := (areSegments first List.mem_cons_self).notEmpty
      simp [isAbsolute, segments_joinWith_cons areSegments, notEmpty]

/-- Without the empty ones, texts between slashes are segments. -/
theorem isSegment_of_mem_filter
    (noSlash : ∀ segment ∈ segments, '/' ∉ segment.toList) :
    ∀ segment ∈ segments.filter (· ≠ ""), IsSegment segment := by
  intro segment isKept
  obtain ⟨isHere, notEmpty⟩ := List.mem_filter.mp isKept
  constructor
  · simpa using notEmpty
  · exact noSlash segment isHere

/-- Segments that are joined with slashes behind a first one start at the root. -/
theorem steps_root_joinWith
    (noSlash : ∀ segment ∈ segments, '/' ∉ segment.toList) :
    (Path.mk ("/" ++ Text.joinWith "/" segments)).steps =
      .root :: stepsFrom segments := by
  have behind : (Path.mk ("/" ++ Text.joinWith "/" segments)).segments =
      [""] ++ (Path.mk (Text.joinWith "/" segments)).segments :=
    Text.splitOn_append_cons '/' "" (Text.joinWith "/" segments)
  have sameSteps : stepsFrom (Path.mk (Text.joinWith "/" segments)).segments =
      stepsFrom segments := by
    cases segments with
    | nil => rfl
    | cons first rest => rw [segments_joinWith (List.cons_ne_nil first rest) noSlash]
  rw [steps_eq, behind, stepsFrom_append, sameSteps]
  simp [start, stepsFrom, Step.ofSegment?, segments_ne_nil]

/-- The empty path takes no steps. -/
theorem steps_empty : (Path.mk "").steps = [] := by decide

/-- Only the empty path takes no steps. -/
theorem steps_eq_nil_iff : path.steps = [] ↔ path.text = "" := by
  constructor
  · intro noSteps
    rw [steps_eq, List.append_eq_nil_iff] at noSteps
    obtain ⟨noStart, noMore⟩ := noSteps
    cases areSegments : path.segments with
    | nil => exact absurd areSegments path.segments_ne_nil
    | cons first rest =>
        rw [areSegments] at noStart noMore
        have isIdle : Step.ofSegment? first = none :=
          List.filterMap_eq_nil_iff.mp noMore first List.mem_cons_self
        have notHere : first ≠ "." := by
          rintro rfl
          simp [start] at noStart
        have isEmpty : first = "" :=
          (Step.ofSegment?_eq_none_iff.mp isIdle).resolve_right notHere
        have noRest : rest = [] := by
          simpa [start, isEmpty] using noStart
        rw [isEmpty, noRest] at areSegments
        exact Text.eq_of_splitOn_eq_singleton areSegments
  · intro isEmpty
    rw [show path = ⟨""⟩ from congrArg Path.mk isEmpty]
    exact steps_empty

/-- A path starts below another one if it starts neither at the root nor here. -/
theorem start_eq_nil
    (notAtRoot : .root ∉ path.steps)
    (notHere : .here ∉ path.steps) :
    start path.segments = [] := by
  rw [steps_eq, List.mem_append, not_or] at notAtRoot notHere
  have startsNotAtRoot := notAtRoot.1
  have startsNotHere := notHere.1
  cases areSegments : path.segments with
  | nil => rfl
  | cons first rest =>
      rw [areSegments] at startsNotAtRoot startsNotHere
      by_cases isHere : first = "."
      · simp [start, isHere] at startsNotHere
      · by_cases isRoot : first = "" ∧ rest ≠ []
        · simp [start, isRoot] at startsNotAtRoot
        · simp only [start, if_neg isHere, if_neg isRoot]

/-- Empty segments take no step. -/
theorem stepsFrom_filter (segments : List String) :
    stepsFrom (segments.filter (· ≠ "")) = stepsFrom segments := by
  unfold stepsFrom
  rw [List.filterMap_filter]
  refine List.filterMap_congr fun segment _ => ?_
  by_cases isEmpty : segment = "" <;> simp [isEmpty, Step.ofSegment?]

/-- Without empty segments, a path below another one stays below. -/
theorem start_filter (noStart : start segments = []) :
    start (segments.filter (· ≠ "")) = [] := by
  cases segments with
  | nil => rfl
  | cons first rest =>
      by_cases isHere : first = "."
      · simp [start, isHere] at noStart
      · by_cases isEmpty : first = ""
        · have noRest : rest = [] := by simpa [start, isEmpty] using noStart
          simp [isEmpty, noRest, start]
        · simp [start, isHere, isEmpty]

/-! ## Joining -/

/-- What a path that is not empty is joined with goes on from its segments, an empty
one at their end apart. -/
theorem exists_segments_join
    (isRelative : path.isAbsolute = false)
    (notEmpty : base.text ≠ "") :
    ∃ kept, kept ≠ [] ∧ (base.join path).segments = kept ++ path.segments
      ∧ (base.segments = kept ∧ kept ≠ [""] ∨ base.segments = kept ++ [""]) := by
  unfold join
  rw [if_neg (by simp [isRelative])]
  by_cases endsWith : base.segments.getLast? = some ""
  · rw [if_pos (Or.inr endsWith)]
    obtain ⟨init, isBase, isJoined⟩ :=
      Text.splitOn_append_of_getLast? endsWith path.text
    refine ⟨init, ?_, isJoined, Or.inr isBase⟩
    rintro rfl
    exact notEmpty (Text.eq_of_splitOn_eq_singleton isBase)
  · rw [if_neg (by simp [notEmpty, endsWith])]
    refine ⟨base.segments, base.segments_ne_nil, ?_, Or.inl ⟨rfl, ?_⟩⟩
    · exact Text.splitOn_append_cons '/' base.text path.text
    · intro isEmpty
      exact endsWith (by rw [isEmpty]; rfl)

/-- The steps of a path that is joined to another one come behind those of the
other. -/
theorem steps_join
    (isRelative : path.isAbsolute = false)
    (notEmpty : base.text ≠ "") :
    (base.join path).steps = base.steps ++ stepsFrom path.segments := by
  obtain ⟨kept, isSome, isJoined, isBase⟩ := exists_segments_join isRelative notEmpty
  rw [steps_eq, steps_eq, isJoined, stepsFrom_append]
  rcases isBase with ⟨isBase, notIdle⟩ | isBase
  · rw [isBase, start_append isSome notIdle, List.append_assoc]
  · rw [isBase, start_append_congr isSome path.segments_ne_nil
      (List.cons_ne_nil "" []), stepsFrom_append, List.append_assoc]
    simp [stepsFrom, Step.ofSegment?]

/-- A path that is joined to the empty path stays the same. -/
theorem join_of_empty
    (isRelative : path.isAbsolute = false)
    (isEmpty : base.text = "") :
    base.join path = path := by
  simp [join, isRelative, isEmpty]

/-- A name that takes the step down to it. -/
structure IsName (name : String) : Prop where
  noSlash : '/' ∉ name.toList
  stepsDown : Step.ofSegment? name = some (.down name)

/-- What is longer than the segments that are no names is a name. -/
theorem IsName.of_length
    {name : String}
    (noSlash : '/' ∉ name.toList)
    (isLong : 2 < name.length) :
    IsName name where
  noSlash := noSlash
  stepsDown := by
    unfold Step.ofSegment?
    split
    · exact absurd isLong (by decide)
    · exact absurd isLong (by decide)
    · exact absurd isLong (by decide)
    · rfl

/-- Joining a name to a path goes down to it. -/
theorem steps_join_name
    {name : String}
    (isName : IsName name)
    (base : Path) :
    (base.join ⟨name⟩).steps = base.steps ++ [.down name] := by
  have areSegments : (Path.mk name).segments = [name] :=
    Text.splitOn_eq_singleton isName.noSlash
  have isRelative : (Path.mk name).isAbsolute = false := by
    simp [isAbsolute, areSegments]
  have stepsDown : stepsFrom [name] = [.down name] := by
    simp [stepsFrom, isName.stepsDown]
  by_cases isEmpty : base.text = ""
  · have baseSteps : base.steps = [] := steps_eq_nil_iff.mpr isEmpty
    have notHere : name ≠ "." := by
      rintro rfl
      simpa [Step.ofSegment?] using isName.stepsDown
    rw [join_of_empty isRelative isEmpty, steps_eq, areSegments, stepsDown, baseSteps]
    simp [start, notHere]
  · rw [steps_join isRelative isEmpty, areSegments, stepsDown]

/-- A name behind a slash is what a path that is not empty goes down to. -/
theorem steps_append_name
    {directory name : String}
    (notEmpty : directory ≠ "")
    (isName : IsName name) :
    (Path.mk (directory ++ "/" ++ name)).steps =
      (Path.mk directory).steps ++ [.down name] := by
  have areSegments : (Path.mk (directory ++ "/" ++ name)).segments =
      (Path.mk directory).segments ++ [name] := by
    rw [← Text.splitOn_eq_singleton isName.noSlash]
    exact Text.splitOn_append_cons '/' directory name
  have notIdle : (Path.mk directory).segments ≠ [""] :=
    fun isIdle => notEmpty (Text.eq_of_splitOn_eq_singleton isIdle)
  rw [steps_eq, steps_eq, areSegments, start_append (segments_ne_nil _) notIdle,
    stepsFrom_append, List.append_assoc]
  simp [stepsFrom, isName.stepsDown]

/-! ## Leaving -/

/-- Segments at the end that take no step make no difference. -/
theorem stepsFrom_dropIdleEnd (segments : List String) :
    stepsFrom (dropIdleEnd segments) = stepsFrom segments := by
  have idle : stepsFrom (segments.reverse.takeWhile
      fun segment => (Step.ofSegment? segment).isNone).reverse = [] := by
    apply List.filterMap_eq_nil_iff.mpr
    intro segment isIdle
    rw [List.mem_reverse] at isIdle
    simpa using List.mem_takeWhile_imp isIdle
  have split : segments = dropIdleEnd segments
      ++ (segments.reverse.takeWhile
          fun segment => (Step.ofSegment? segment).isNone).reverse := by
    rw [dropIdleEnd, ← List.reverse_append, List.takeWhile_append_dropWhile,
      List.reverse_reverse]
  conv_rhs => rw [split, stepsFrom_append, idle, List.append_nil]

theorem dropIdleEnd_subset (segments : List String) :
    dropIdleEnd segments ⊆ segments := by
  intro segment isKept
  rw [dropIdleEnd, List.mem_reverse] at isKept
  exact List.mem_reverse.mp (List.dropWhile_subset _ isKept)

/-- Without segments at the end that take no step, the last one takes a step. -/
theorem exists_step_of_dropIdleEnd (isSome : dropIdleEnd segments ≠ []) :
    ∃ step, Step.ofSegment? ((dropIdleEnd segments).getLast isSome) = some step := by
  have notIdle : ¬ (Step.ofSegment? ((dropIdleEnd segments).getLast isSome)).isNone :=
    List.rdropWhile_last_not (fun segment => (Step.ofSegment? segment).isNone) segments
      isSome
  apply Option.ne_none_iff_exists'.mp
  simpa using notIdle

/-- What is left of segments that take a step takes all of their steps but the
last. -/
theorem stepsFrom_of_dropLastStep
    (isDropped : dropLastStep segments = some kept) :
    stepsFrom segments ≠ []
      ∧ stepsFrom kept = (stepsFrom segments).dropLast
      ∧ kept ⊆ segments := by
  unfold dropLastStep at isDropped
  split at isDropped
  · contradiction
  · rename_i first rest isEnd
    cases isDropped
    have isSome : first :: rest ≠ [] := List.cons_ne_nil first rest
    have ends : first :: rest =
        (first :: rest).dropLast ++ [(first :: rest).getLast isSome] :=
      (List.dropLast_append_getLast isSome).symm
    obtain ⟨step, isStep⟩ := exists_step_of_dropIdleEnd (isEnd ▸ isSome)
    simp only [isEnd] at isStep
    have split : stepsFrom segments =
        stepsFrom (first :: rest).dropLast ++ [step] := by
      rw [← stepsFrom_dropIdleEnd segments, isEnd, ends, stepsFrom_append]
      simp [stepsFrom, isStep]
    refine ⟨by simp [split], ?_, ?_⟩
    · rw [split, List.dropLast_concat, stepsFrom_dropIdleEnd]
    · refine List.Subset.trans (dropIdleEnd_subset _) ?_
      refine List.Subset.trans (List.dropLast_subset _) ?_
      exact isEnd ▸ dropIdleEnd_subset segments

/-- Segments of which nothing can be dropped take no step. -/
theorem stepsFrom_of_dropLastStep_eq_none
    (isDropped : dropLastStep segments = none) :
    stepsFrom segments = [] := by
  unfold dropLastStep at isDropped
  split at isDropped
  · rename_i isEmpty
    rw [← stepsFrom_dropIdleEnd, isEmpty]
    rfl
  · contradiction

section Relative

variable {first : String} {rest : List String}

/-- Behind a first segment, what is left takes all steps but the last. -/
theorem steps_of_dropLastStep
    (notEmpty : first ≠ "")
    (isDropped : dropLastStep rest = some kept) :
    start (first :: kept) ++ stepsFrom (first :: kept) =
      (start (first :: rest) ++ stepsFrom (first :: rest)).dropLast := by
  obtain ⟨isSome, isKept, _⟩ := stepsFrom_of_dropLastStep isDropped
  have sameStart := start_append (List.cons_ne_nil first []) (by simpa using notEmpty)
  change start ([first] ++ kept) ++ stepsFrom ([first] ++ kept) =
    (start ([first] ++ rest) ++ stepsFrom ([first] ++ rest)).dropLast
  rw [sameStart, sameStart, stepsFrom_append, stepsFrom_append, isKept,
    ← List.append_assoc, ← List.append_assoc, List.dropLast_append_of_ne_nil isSome]

/-- A first segment that nothing can be dropped behind takes the only step. -/
theorem steps_of_dropLastStep_eq_none
    (notEmpty : first ≠ "")
    (isDropped : dropLastStep rest = none) :
    [] = (start (first :: rest) ++ stepsFrom (first :: rest)).dropLast := by
  rw [← List.singleton_append, stepsFrom_append,
    stepsFrom_of_dropLastStep_eq_none isDropped,
    start_append (List.cons_ne_nil first []) (by simpa using notEmpty)]
  by_cases isHere : first = "."
  · subst isHere
    rfl
  · cases isStep : Step.ofSegment? first <;>
      simp [start, stepsFrom, isHere, notEmpty, isStep]

end Relative

/-- The parent of a path takes all of its steps but the last. -/
theorem steps_parent? (isParent : path.parent? = some parent) :
    parent.steps = path.steps.dropLast := by
  have noSlash : ∀ {kept : List String}, kept ⊆ path.segments →
      ∀ segment ∈ kept, '/' ∉ segment.toList :=
    fun isPart segment isKept => not_mem_of_mem_segments (isPart isKept)
  rw [steps_eq path]
  unfold parent? at isParent
  split at isParent
  · contradiction
  · rename_i next rest isAbsolute
    obtain ⟨kept, isDropped, rfl⟩ := Option.map_eq_some_iff.mp isParent
    obtain ⟨isSome, isKept, isPart⟩ := stepsFrom_of_dropLastStep isDropped
    rw [isAbsolute] at noSlash ⊢
    rw [steps_root_joinWith (noSlash (List.subset_cons_of_subset "" isPart)), isKept]
    have startsAtRoot : start ("" :: next :: rest) = [.root] := rfl
    have noStep : stepsFrom ("" :: next :: rest) = stepsFrom (next :: rest) := rfl
    rw [startsAtRoot, noStep, List.dropLast_append_of_ne_nil isSome]
    rfl
  · rename_i first rest notAbsolute areSegments
    rw [areSegments] at noSlash ⊢
    split at isParent
    · rename_i kept isDropped
      obtain rfl := Option.some.inj isParent
      obtain ⟨isSome, _, isPart⟩ := stepsFrom_of_dropLastStep isDropped
      have notEmpty : first ≠ "" := by
        intro isEmpty
        cases rest with
        | nil => exact isSome rfl
        | cons next more => exact notAbsolute next more isEmpty rfl
      rw [steps_eq, segments_joinWith (List.cons_ne_nil first kept)
        (noSlash (List.cons_subset_cons first isPart))]
      exact steps_of_dropLastStep notEmpty isDropped
    · rename_i isDropped
      split at isParent
      · contradiction
      · rename_i notEmpty
        obtain rfl := Option.some.inj isParent
        rw [steps_empty]
        exact steps_of_dropLastStep_eq_none notEmpty isDropped

/-- A path that goes down to a name at its end has a parent. -/
theorem exists_parent?
    {init : List Step}
    {name : String}
    (endsDown : path.steps = init ++ [.down name]) :
    ∃ parent, path.parent? = some parent ∧ parent.steps = init := by
  suffices hasParent : path.parent? ≠ none by
    obtain ⟨parent, isParent⟩ := Option.ne_none_iff_exists'.mp hasParent
    refine ⟨parent, isParent, ?_⟩
    rw [steps_parent? isParent, endsDown, List.dropLast_concat]
  intro noParent
  rw [steps_eq] at endsDown
  unfold parent? at noParent
  split at noParent
  · rename_i noSegments
    exact path.segments_ne_nil noSegments
  · rename_i next rest isAbsolute
    have isIdle : stepsFrom (next :: rest) = [] :=
      stepsFrom_of_dropLastStep_eq_none (Option.map_eq_none_iff.mp noParent)
    have noStep : stepsFrom ("" :: next :: rest) = [] := isIdle
    rw [isAbsolute, noStep, List.append_nil] at endsDown
    have isRoot := congrArg List.getLast? endsDown
    simp [start] at isRoot
  · rename_i first rest notAbsolute areSegments
    split at noParent
    · contradiction
    · rename_i isDropped
      split at noParent
      · rename_i isEmpty
        cases rest with
        | nil =>
            rw [areSegments, isEmpty] at endsDown
            simp [start, stepsFrom, Step.ofSegment?] at endsDown
        | cons next more => exact notAbsolute next more isEmpty rfl
      · contradiction

/-- The directory of a path that goes down to a name at its end takes the steps in
front. -/
theorem steps_directory
    {init : List Step}
    {name : String}
    (endsDown : path.steps = init ++ [.down name]) :
    path.directory.steps = init := by
  obtain ⟨parent, isParent, parentSteps⟩ := exists_parent? endsDown
  rw [directory, isParent]
  exact parentSteps

/-- The file name of a path that ends with a step down. -/
theorem fileName?_eq_some
    {name : String}
    (endsDown : path.steps.getLast? = some (.down name)) :
    path.fileName? = some name := by
  unfold fileName?
  rw [endsDown]

/-- A path with a file name ends with the step down to it. -/
theorem getLast?_of_fileName?
    {name : String}
    (isFileName : path.fileName? = some name) :
    path.steps.getLast? = some (.down name) := by
  unfold fileName? at isFileName
  split at isFileName
  · rename_i endsDown
    cases isFileName
    exact endsDown
  · contradiction

end Path
end PackageFlags
