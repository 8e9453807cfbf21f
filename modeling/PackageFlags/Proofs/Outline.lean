import Mathlib.Data.List.Basic
import PackageFlags.Failure

/-!
# The outline of a failure

A failure that keeps others is a tree, and its message is the outline of that tree. The
nodes come depth first, each with the lines of its own text, two blanks further in for
every level. So no failure is lost, they come in the order of the tree, and taking the
indentation of a node away gives its message back.
-/

namespace PackageFlags
namespace Failure

/-- What holds of every failure that is not made of others, and of a failure that keeps
others when it holds of all of them, holds of every failure. -/
@[elab_as_elim] theorem tree_induction
    {motive : Failure → Prop}
    (single : ∀ failure : Failure, failure.kind ≠ .resolution → motive failure)
    (rejected : ∀ name causes, (∀ cause ∈ causes, motive cause) →
      motive (.resolutionFailed name causes))
    (failure : Failure) : motive failure := by
  refine @Failure.rec motive (fun causes => ∀ cause ∈ causes, motive cause)
    ?_ ?_ ?_ ?_ ?_ ?_ ?_ ?_ ?_ (fun name causes hold => rejected name causes hold)
    ?_ ?_ ?_ ?_ ?_ (by simp)
    (fun _ _ first rest => List.forall_mem_cons.mpr ⟨first, rest⟩) failure
  all_goals
    intros
    exact single _ nofun

/-! ## Nodes -/

/-- The text of a failure itself: that all candidates for a name failed is announced
by the name, and any other failure is told in full. -/
def ownText : Failure -> String
  | .resolutionFailed name _ => name ++ ":"
  | failure => failure.message

mutual

/-- A failure at a level with all that it keeps, depth first. -/
def nodesFrom (level : Nat) : Failure -> List (Nat × Failure)
  | .resolutionFailed name causes =>
      (level, .resolutionFailed name causes) :: nodesOf (level + 1) causes
  | failure => [(level, failure)]

/-- Failures at a level with all that they keep, one after the other. -/
def nodesOf (level : Nat) : List Failure -> List (Nat × Failure)
  | [] => []
  | cause :: rest => cause.nodesFrom level ++ nodesOf level rest

end

theorem nodesOf_eq (level : Nat) (causes : List Failure) :
    nodesOf level causes = causes.flatMap (nodesFrom level) := by
  induction causes with
  | nil => rfl
  | cons cause rest restSame => rw [nodesOf, restSame, List.flatMap_cons]

theorem rootCausesOf_eq (causes : List Failure) :
    rootCausesOf causes = causes.flatMap rootCauses := by
  induction causes with
  | nil => rfl
  | cons cause rest restSame => rw [rootCausesOf, restSame, List.flatMap_cons]

section Single

variable {failure : Failure} (isSingle : failure.kind ≠ .resolution)

include isSingle

theorem nodesFrom_of_single (level : Nat) :
    failure.nodesFrom level = [(level, failure)] := by
  cases failure <;> first | rfl | exact absurd rfl isSingle

theorem ownText_of_single : failure.ownText = failure.message := by
  cases failure <;> first | rfl | exact absurd rfl isSingle

theorem rootCauses_of_single : failure.rootCauses = [failure] := by
  cases failure <;> first | rfl | exact absurd rfl isSingle

end Single

/-- The nodes that are not made of others are the root causes. -/
theorem filter_nodesFrom (failure : Failure) (level : Nat) :
    ((failure.nodesFrom level).map Prod.snd).filter
        (fun node => node.kind ≠ .resolution) =
      failure.rootCauses := by
  induction failure using tree_induction generalizing level with
  | single failure isSingle =>
      rw [nodesFrom_of_single isSingle, rootCauses_of_single isSingle]
      simp [isSingle]
  | rejected name causes causesSame =>
      rw [nodesFrom, rootCauses, nodesOf_eq, rootCausesOf_eq, List.map_cons,
        List.filter_cons_of_neg (by simp [kind]), List.map_flatMap, List.filter_flatMap]
      exact List.flatMap_congr fun cause isCause => causesSame cause isCause (level + 1)

/-- A part of a list of parts that begins inside one of them goes on with the rest of
that one. -/
theorem exists_behind_of_flatMap
    {causes : List Failure}
    {level depth : Nat}
    {node : Failure}
    {earlier later : List (Nat × Failure)}
    (causesBehind : ∀ cause ∈ causes, ∀ earlier later,
      cause.nodesFrom level = earlier ++ (depth, node) :: later →
      ∃ rest, (depth, node) :: later = node.nodesFrom depth ++ rest)
    (areNodes : causes.flatMap (nodesFrom level) = earlier ++ (depth, node) :: later) :
    ∃ rest, (depth, node) :: later = node.nodesFrom depth ++ rest := by
  induction causes generalizing earlier with
  | nil => simp at areNodes
  | cons cause others othersBehind =>
      obtain ⟨causeBehind, restBehind⟩ := List.forall_mem_cons.mp causesBehind
      rw [List.flatMap_cons] at areNodes
      obtain ⟨before, _, areOthers⟩ | ⟨before, areFirst, isLater⟩ :=
        List.append_eq_append_iff.mp areNodes
      · exact othersBehind restBehind areOthers
      · obtain ⟨rfl, areOthers⟩ | ⟨inside, rfl, rfl⟩ := List.cons_eq_append_iff.mp isLater
        · exact othersBehind restBehind (areOthers.trans (List.nil_append _).symm)
        · obtain ⟨rest, isRest⟩ := causeBehind earlier inside areFirst
          exact ⟨rest ++ others.flatMap (nodesFrom level), by
            rw [← List.cons_append, isRest, List.append_assoc]⟩

/-- All that a node keeps follows it. -/
theorem exists_nodes_behind
    {failure node : Failure}
    {level depth : Nat}
    {earlier later : List (Nat × Failure)}
    (areNodes : failure.nodesFrom level = earlier ++ (depth, node) :: later) :
    ∃ rest, (depth, node) :: later = node.nodesFrom depth ++ rest := by
  induction failure using tree_induction generalizing level earlier later with
  | single failure isSingle =>
      rw [nodesFrom_of_single isSingle] at areNodes
      obtain ⟨rfl, isNode⟩ | ⟨_, isNothing⟩ := List.singleton_eq_append_iff.mp areNodes
      · cases isNode
        exact ⟨[], by simp [nodesFrom_of_single isSingle]⟩
      · contradiction
  | rejected name causes causesBehind =>
      rw [nodesFrom, nodesOf_eq] at areNodes
      obtain ⟨rfl, isNode⟩ | ⟨others, rfl, areBelow⟩ := List.cons_eq_append_iff.mp areNodes
      · cases isNode
        exact ⟨[], by rw [nodesFrom, nodesOf_eq, List.append_nil]⟩
      · exact exists_behind_of_flatMap
          (fun cause isCause _ _ => causesBehind cause isCause) areBelow

/-! ## Lines -/

/-- A line at a level. -/
def lineAt (level : Nat) (line : String) : String :=
  String.ofList (List.replicate (2 * level) ' ') ++ line

/-- A line without the indentation of a level. -/
def withoutIndent (level : Nat) (line : String) : String :=
  String.ofList (line.toList.drop (2 * level))

/-- The lines of nodes, each at its level. -/
def linesOf (nodes : List (Nat × Failure)) : List String :=
  nodes.flatMap fun (level, node) =>
    (Text.splitOn '\n' node.ownText).map (lineAt level)

@[simp] theorem linesOf_cons
    (level : Nat)
    (node : Failure)
    (rest : List (Nat × Failure)) :
    linesOf ((level, node) :: rest) =
      (Text.splitOn '\n' node.ownText).map (lineAt level) ++ linesOf rest := rfl

theorem lineAt_zero : lineAt 0 = id := by
  funext line
  simp [lineAt]

/-- Lines one level further in. -/
theorem map_lineAt_succ (level : Nat) (lines : List String) :
    lines.map (lineAt (level + 1)) = (lines.map ("  " ++ ·)).map (lineAt level) := by
  rw [List.map_map]
  refine List.map_congr_left fun line _ => String.toList_injective ?_
  simp [lineAt, Nat.mul_add, ← List.replicate_append_replicate]

theorem withoutIndent_comp_lineAt (level : Nat) :
    withoutIndent level ∘ lineAt level = id := by
  funext line
  simp [withoutIndent, lineAt]

/-- Blanks belong to the first piece of the text that they stand in front of. -/
theorem pieces_blanks (chars : List Char) :
    Text.pieces (· = '\n') (' ' :: ' ' :: chars) =
      (Text.pieces (· = '\n') chars).modifyHead (' ' :: ' ' :: ·) := by
  simp only [Text.pieces, show ¬ ' ' = '\n' by decide, decide_false, Bool.false_eq_true,
    if_false, List.modifyHead_modifyHead]
  rfl

/-- Every piece of indented characters begins with two blanks. -/
theorem pieces_indented (chars : List Char) :
    Text.pieces (· = '\n') (' ' :: ' ' :: chars.flatMap fun c =>
        if c = '\n' then ['\n', ' ', ' '] else [c]) =
      (Text.pieces (· = '\n') chars).map (' ' :: ' ' :: ·) := by
  induction chars with
  | nil => rfl
  | cons c rest restIndented =>
      rw [pieces_blanks] at restIndented ⊢
      rw [List.flatMap_cons]
      generalize rest.flatMap _ = indented at restIndented ⊢
      by_cases isEnd : c = '\n'
      · have isNext : Text.pieces (· = '\n') ('\n' :: ' ' :: ' ' :: indented) =
            [] :: Text.pieces (· = '\n') (' ' :: ' ' :: indented) := rfl
        simp only [isEnd, if_true, List.cons_append, List.nil_append, isNext,
          pieces_blanks, restIndented]
        rfl
      · simp only [isEnd, if_false, decide_false, List.singleton_append, Text.pieces]
        cases areRest : Text.pieces (· = '\n') rest with
        | nil => exact absurd areRest (Text.pieces_ne_nil _ rest)
        | cons piece more =>
            cases areIndented : Text.pieces (· = '\n') indented with
            | nil => exact absurd areIndented (Text.pieces_ne_nil _ indented)
            | cons first others =>
                simp_all

/-- Every line of an indented text begins with two blanks. -/
theorem splitOn_indent (text : String) :
    Text.splitOn '\n' ("  " ++ indent text) =
      (Text.splitOn '\n' text).map ("  " ++ ·) := by
  have areChars : ("  " ++ indent text).toList =
      ' ' :: ' ' :: text.toList.flatMap fun c =>
        if c = '\n' then ['\n', ' ', ' '] else [c] := by
    simp [indent]
  rw [Text.splitOn, Text.splitOn, areChars, pieces_indented, List.map_map, List.map_map]
  refine List.map_congr_left fun piece _ => String.toList_injective ?_
  simp

/-- The lines of an outline follow those of the text in front of it. -/
theorem splitOn_outline (before : String) (causes : List Failure) :
    Text.splitOn '\n' (before ++ outline causes) =
      Text.splitOn '\n' before ++ causes.flatMap fun cause =>
        (Text.splitOn '\n' cause.message).map ("  " ++ ·) := by
  induction causes generalizing before with
  | nil => simp
  | cons cause rest restLines =>
      have split : before ++ outline (cause :: rest) =
          (before ++ String.ofList ['\n'] ++ ("  " ++ indent cause.message))
            ++ outline rest := by
        apply String.toList_injective
        simp
      rw [split, restLines, Text.splitOn_append_cons, splitOn_indent, List.flatMap_cons,
        List.append_assoc]

/-- The lines of all that a failure keeps are those of its message at its level. -/
theorem linesOf_nodesFrom (failure : Failure) (level : Nat) :
    linesOf (failure.nodesFrom level) =
      (Text.splitOn '\n' failure.message).map (lineAt level) := by
  induction failure using tree_induction generalizing level with
  | single failure isSingle =>
      simp [nodesFrom_of_single isSingle, linesOf, ownText_of_single isSingle]
  | rejected name causes causesLines =>
      have below : linesOf (causes.flatMap (nodesFrom (level + 1))) =
          (causes.flatMap fun cause =>
            (Text.splitOn '\n' cause.message).map ("  " ++ ·)).map (lineAt level) := by
        rw [linesOf, List.flatMap_assoc, List.map_flatMap]
        refine List.flatMap_congr fun cause isCause => ?_
        rw [← map_lineAt_succ]
        exact causesLines cause isCause (level + 1)
      calc linesOf ((resolutionFailed name causes).nodesFrom level)
          = (Text.splitOn '\n' (name ++ ":")).map (lineAt level)
              ++ linesOf (causes.flatMap (nodesFrom (level + 1))) := by
            rw [nodesFrom, nodesOf_eq, linesOf_cons, ownText]
        _ = (Text.splitOn '\n' (name ++ ":" ++ outline causes)).map (lineAt level) := by
            rw [splitOn_outline, List.map_append, below]
        _ = (Text.splitOn '\n' (message (.resolutionFailed name causes))).map
              (lineAt level) := by
            rw [message_resolutionFailed]

/-- The lines of a message are those of all nodes of the failure, depth first and each
at its level, so that the root causes are told in order. All that a node keeps follows
it at once, and these lines without their indentation are the message of the node. -/
theorem splitOn_message (failure : Failure) :
    Text.splitOn '\n' failure.message = linesOf (failure.nodesFrom 0)
      ∧ ((failure.nodesFrom 0).map Prod.snd).filter
          (fun node => node.kind ≠ .resolution) = failure.rootCauses
      ∧ ∀ earlier level node later,
          failure.nodesFrom 0 = earlier ++ (level, node) :: later →
          ∃ rest, (level, node) :: later = node.nodesFrom level ++ rest
            ∧ Text.joinWith "\n"
                ((linesOf (node.nodesFrom level)).map (withoutIndent level)) =
              node.message := by
  refine ⟨?_, filter_nodesFrom failure 0, ?_⟩
  · have isIndented := linesOf_nodesFrom failure 0
    rw [lineAt_zero, List.map_id] at isIndented
    exact isIndented.symm
  · intro earlier level node later areNodes
    obtain ⟨rest, isBehind⟩ := exists_nodes_behind areNodes
    refine ⟨rest, isBehind, ?_⟩
    rw [linesOf_nodesFrom, List.map_map, withoutIndent_comp_lineAt, List.map_id]
    exact Text.joinWith_splitOn '\n' node.message

/-- A cause of two lines, inside a name of which the only candidate failed. -/
example : message (.resolutionFailed "app" [
      .resolutionFailed "zlib" [.malformedJson "zlib.cps" "line 1\nline 2"],
      .noVersion "app.cps" "2"]) =
    "app:\n" ++
    "  zlib:\n" ++
    "    Failed to parse JSON in `zlib.cps`: line 1\n" ++
    "    line 2\n" ++
    "  `app.cps` does not specify a version, but version 2 is required" := by
  decide +kernel

end Failure
end PackageFlags
