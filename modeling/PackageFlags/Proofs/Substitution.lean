import PackageFlags.Proofs.InstallRoots

/-!
# Values below the installation root

The placeholder at the beginning of a value stands for the installation root. The segments
behind it are joined to the root one after another, without the empty ones. However many
slashes a value has and wherever they are, none of its segments takes the place of the
root: what results is the root as it is written, with these segments behind it and single
slashes between them.
-/

namespace PackageFlags

/-! ## The end of a text -/

namespace Text

/-- The last piece of a text is empty exactly if nothing but a separator is at its end. -/
theorem getLast?_splitOn_eq_some_empty_iff {separator : Char} {text : String} :
    (splitOn separator text).getLast? = some "" ↔
      ∀ c ∈ text.toList.getLast?, c = separator := by
  rw [splitOn]
  rcases List.eq_nil_or_concat text.toList with isEmpty | ⟨init, last, areChars⟩
  · simp [isEmpty, pieces]
  · rw [areChars, List.concat_eq_append]
    by_cases isSeparator : last = separator
    · rw [pieces_append_cons (by simpa using isSeparator)]
      simp [pieces, isSeparator]
    · obtain ⟨before, piece, _, isAppend⟩ := pieces_append (· = separator) init [last]
      rw [isAppend]
      simp [pieces, isSeparator]

end Text

/-! ## Segments behind a path -/

namespace Path

variable {base path : Path} {segment : String} {segments : List String}

/-- The slash that is put behind a path; there is none behind the empty path, or if the
path ends with one. -/
def slashBehind (path : Path) : String :=
  match path.text.toList.getLast? with
  | none => ""
  | some c => if c = '/' then "" else "/"

/-- The text of a path with segments behind it. -/
def followedBy (path : Path) : List String -> String
  | [] => path.text
  | first :: rest =>
      path.text ++ path.slashBehind ++ Text.joinWith "/" (first :: rest)

theorem slashBehind_of_ends
    (ends : ∀ c ∈ path.text.toList.getLast?, c = '/') :
    path.slashBehind = "" := by
  unfold slashBehind
  split
  · rfl
  · rename_i c isLast
    exact if_pos (ends c isLast)

theorem slashBehind_of_not_ends
    (notEnds : ¬ ∀ c ∈ path.text.toList.getLast?, c = '/') :
    path.slashBehind = "/" := by
  unfold slashBehind
  split
  · rename_i isEmpty
    simp [isEmpty] at notEnds
  · rename_i c isLast
    apply if_neg
    simpa [isLast] using notEnds

/-- A path that does not start at the root is put behind another one, with a slash between
them if there is none. -/
theorem join_of_relative (isRelative : path.isAbsolute = false) :
    base.join path = ⟨base.text ++ base.slashBehind ++ path.text⟩ := by
  have isLastEmpty : base.segments.getLast? = some "" ↔
      ∀ c ∈ base.text.toList.getLast?, c = '/' :=
    Text.getLast?_splitOn_eq_some_empty_iff
  unfold join
  rw [if_neg (by simp [isRelative])]
  by_cases ends : ∀ c ∈ base.text.toList.getLast?, c = '/'
  · rw [if_pos (Or.inr (isLastEmpty.mpr ends)), slashBehind_of_ends ends,
      String.append_empty]
  · have notEmpty : base.text ≠ "" := by
      intro isEmpty
      simp [isEmpty] at ends
    rw [if_neg (not_or.mpr ⟨notEmpty, fun isLast => ends (isLastEmpty.mp isLast)⟩),
      slashBehind_of_not_ends ends]

/-- Behind a segment there is a slash to put. -/
theorem slashBehind_append
    (isSegment : IsSegment segment)
    (text : String) :
    (Path.mk (text ++ segment)).slashBehind = "/" := by
  apply slashBehind_of_not_ends
  intro ends
  cases isLast : segment.toList.getLast? with
  | none =>
      apply isSegment.notEmpty
      simpa using isLast
  | some c =>
      apply isSegment.noSlash
      have isSlash : c = '/' := ends c (by simp [isLast])
      exact isSlash ▸ List.mem_of_getLast? isLast

/-- A path with segments behind it is what they make when they are joined to it one after
another. -/
theorem text_foldl_join
    (areSegments : ∀ segment ∈ segments, IsSegment segment)
    (base : Path) :
    (segments.foldl (fun path segment => path.join ⟨segment⟩) base).text =
      base.followedBy segments := by
  induction segments generalizing base with
  | nil => rfl
  | cons first rest restJoined =>
      obtain ⟨isSegment, areOthers⟩ := List.forall_mem_cons.mp areSegments
      have isRelative : (Path.mk first).isAbsolute = false :=
        isAbsolute_joinWith (List.forall_mem_singleton.mpr isSegment)
      rw [List.foldl_cons, restJoined areOthers, join_of_relative isRelative]
      cases rest with
      | nil => rfl
      | cons next more =>
          have isPut := slashBehind_append isSegment (base.text ++ base.slashBehind)
          rw [followedBy, followedBy, isPut, Text.joinWith]
          simp only [String.append_assoc]

/-- Some segments behind a path make another text. -/
theorem followedBy_cons_ne
    {first : String}
    {rest : List String}
    (areSegments : ∀ segment ∈ first :: rest, IsSegment segment)
    (base : Path) :
    base.followedBy (first :: rest) ≠ base.text := by
  intro same
  rw [followedBy, String.append_assoc, String.append_eq_left_iff] at same
  obtain ⟨_, isEmpty⟩ := String.append_eq_empty_iff.mp same
  have isCut := segments_joinWith_cons areSegments
  rw [isEmpty] at isCut
  have isOnly : (Path.mk "").segments = [""] := by decide
  have isFirst : "" = first := (List.cons.inj (isOnly.symm.trans isCut)).1
  exact (areSegments first List.mem_cons_self).notEmpty isFirst.symm

/-- Different segments behind a path make different texts. -/
theorem followedBy_inj
    {left right : List String}
    (areLeft : ∀ segment ∈ left, IsSegment segment)
    (areRight : ∀ segment ∈ right, IsSegment segment) :
    base.followedBy left = base.followedBy right ↔ left = right := by
  constructor
  · intro same
    cases left with
    | nil =>
        cases right with
        | nil => rfl
        | cons next more => exact absurd same.symm (followedBy_cons_ne areRight base)
    | cons first rest =>
        cases right with
        | nil => exact absurd same (followedBy_cons_ne areLeft base)
        | cons next more =>
            have sameJoined : Text.joinWith "/" (first :: rest) =
                Text.joinWith "/" (next :: more) :=
              (String.append_right_inj _).mp same
            rw [← segments_joinWith_cons areLeft, sameJoined,
              segments_joinWith_cons areRight]
  · rintro rfl
    rfl

end Path

/-! ## The root in place of the placeholder -/

namespace InstallRoot

variable {value : String} {segments : List String}

theorem noSlash_behind_placeholder
    (areSegments : (Path.mk value).segments = rootPlaceholder :: segments) :
    ∀ segment ∈ segments, '/' ∉ segment.toList := by
  intro segment isHere
  apply Path.not_mem_of_mem_segments
  rw [areSegments]
  exact List.mem_cons_of_mem rootPlaceholder isHere

/-- The segments behind the placeholder come behind the root, without the empty ones. -/
theorem substitute_eq_followedBy
    (areSegments : (Path.mk value).segments = rootPlaceholder :: segments)
    (root : Path) :
    substitute root value = root.followedBy (segments.filter (· ≠ "")) := by
  have areKept := Path.isSegment_of_mem_filter (noSlash_behind_placeholder areSegments)
  have isBelow := congrArg Path.text (substitute_eq_below areSegments root)
  refine Eq.trans isBelow ?_
  unfold below
  cases kept : segments.filter (· ≠ "") with
  | nil => rfl
  | cons first rest =>
      rw [kept] at areKept
      dsimp only
      rw [Path.join_of_relative (Path.isAbsolute_joinWith areKept)]
      rfl

/-- What results takes the steps of the root first. -/
theorem steps_prefix_substitute
    (areSegments : (Path.mk value).segments = rootPlaceholder :: segments)
    (root : Path) :
    root.steps <+: (Path.mk (substitute root value)).steps := by
  rw [substitute_eq_below areSegments,
    steps_below (noSlash_behind_placeholder areSegments), List.append_assoc]
  exact List.prefix_append _ _

/-- What a value comes to below a root. -/
structure Places (root : Path) (value placed : String) : Prop where
  /-- Behind the placeholder, the segments that are not empty come behind the root. -/
  below : ∀ segments, (Path.mk value).segments = "@prefix@" :: segments →
    placed = root.followedBy (segments.filter (· ≠ ""))
  /-- Any other value stays as it is. -/
  same : (Path.mk value).segments.head? ≠ some "@prefix@" → placed = value

/-- Substitution is the only way to put values below a root. -/
theorem places_iff {root : Path} {placed : String} :
    Places root value placed ↔ substitute root value = placed := by
  constructor
  · intro places
    by_cases isFirst : (Path.mk value).segments.head? = some "@prefix@"
    · obtain ⟨segments, areSegments⟩ := List.head?_eq_some_iff.mp isFirst
      rw [places.below segments areSegments, substitute_eq_followedBy areSegments root]
    · rw [places.same isFirst, substitute_of_head?_ne isFirst root]
  · rintro rfl
    exact {
      below := fun segments areSegments => substitute_eq_followedBy areSegments root
      same := fun notFirst => substitute_of_head?_ne notFirst root }

/-- Substitution stays below the root. If the first segment of a value is the placeholder,
the result is what the other segments, without the empty ones, make when they are joined to
the root one after another: the root as it is written with these segments behind it and
single slashes between them. It takes all the steps of the root first, and values that
start with the placeholder have the same result exactly if they have the same segments
that are not empty. Any other value stays as it is. -/
theorem substitute_stays_below (root : Path) (value : String) :
    (∀ segments, (Path.mk value).segments = rootPlaceholder :: segments →
        substitute root value =
            ((segments.filter (· ≠ "")).foldl
              (fun path segment => path.join ⟨segment⟩) root).text
          ∧ substitute root value = root.followedBy (segments.filter (· ≠ ""))
          ∧ root.steps <+: (Path.mk (substitute root value)).steps
          ∧ ∀ other others, (Path.mk other).segments = rootPlaceholder :: others →
              (substitute root other = substitute root value ↔
                others.filter (· ≠ "") = segments.filter (· ≠ "")))
      ∧ ((Path.mk value).segments.head? ≠ some rootPlaceholder →
          substitute root value = value) := by
  constructor
  · intro segments areSegments
    have areKept :=
      Path.isSegment_of_mem_filter (noSlash_behind_placeholder areSegments)
    have isResult := substitute_eq_followedBy areSegments root
    refine ⟨?_, isResult, steps_prefix_substitute areSegments root, ?_⟩
    · rw [isResult, Path.text_foldl_join areKept]
    · intro other others areOthers
      rw [isResult, substitute_eq_followedBy areOthers root]
      apply Path.followedBy_inj _ areKept
      exact Path.isSegment_of_mem_filter (noSlash_behind_placeholder areOthers)
  · intro notFirst
    exact substitute_of_head?_ne notFirst root

/-- Below a root that ends with a slash, a segment behind two slashes does not start at the
root of the file tree. A placeholder behind a slash is left alone. -/
theorem substitute_stays_below_doubledSlash :
    substitute ⟨"/opt/"⟩ "@prefix@//etc//x/" = "/opt/etc/x"
      ∧ [.root, .down "opt"] <+:
          (Path.mk (substitute ⟨"/opt/"⟩ "@prefix@//etc//x/")).steps
      ∧ substitute ⟨"/opt/"⟩ "@prefix@/etc/x" =
          substitute ⟨"/opt/"⟩ "@prefix@//etc//x/"
      ∧ substitute ⟨"/opt/"⟩ "/@prefix@/etc" = "/@prefix@/etc" := by
  have areSegments : (Path.mk "@prefix@//etc//x/").segments =
      rootPlaceholder :: ["", "etc", "", "x", ""] := by
    decide +kernel
  have areOthers : (Path.mk "@prefix@/etc/x").segments =
      rootPlaceholder :: ["etc", "x"] := by
    decide +kernel
  have rootSteps : (Path.mk "/opt/").steps = [.root, .down "opt"] := by decide +kernel
  obtain ⟨_, isResult, isBelow, sameIff⟩ :=
    (substitute_stays_below ⟨"/opt/"⟩ "@prefix@//etc//x/").1 _ areSegments
  refine ⟨isResult.trans (by decide +kernel), rootSteps ▸ isBelow,
    (sameIff _ _ areOthers).mpr (by decide), ?_⟩
  exact (substitute_stays_below ⟨"/opt/"⟩ "/@prefix@/etc").2 (by decide +kernel)

/-- Below the empty root no slash is put in front, and a segment that goes up is kept like
any other. -/
example : substitute ⟨""⟩ "@prefix@//../etc" = "../etc" := by
  decide +kernel

end InstallRoot
end PackageFlags
