import PackageFlags.Failure

/-!
# Reports with advice

A report tells a reader what went wrong, within which tasks, and what can be done
about it. The tasks stand in front of the problem, outermost first. A file that
could not be read is reported with its cause once more.
-/

namespace PackageFlags

/-- What went wrong. -/
inductive Problem
  /-- A package could not be turned into flags. -/
  | failure (cause : Failure)
  /-- Something may not be accessed. -/
  | permissionDenied (text : String)
  /-- Anything else, in words. -/
  | stated (text : String)

/-- What can be done about a problem. -/
structure Advice where
  /-- What to do. -/
  suggestion : Option String := none
  /-- What else there is to know. -/
  details : Option String := none
  deriving DecidableEq, Repr

namespace Failure

/-- The advice on a failure that is not made of others. -/
def ownAdvice : Failure -> Advice
  | .packageNotFound name searched => {
      suggestion := some ("Add the directory containing " ++ name ++
        ".cps to CPS_PATH, or its installation prefix to CPS_PREFIX_PATH")
      details :=
        if searched.isEmpty then
          none
        else
          some ("Searched: " ++
            Text.joinWith ", " (searched.map Path.text)) }
  | .malformedJson .. => {
      suggestion := some
        "Fix the package description; it does not follow the CPS schema" }
  | .invalidDescription .. => {
      suggestion := some
        "Fix the package description; it does not follow the CPS schema" }
  | .unsupportedCpsVersion _ _ supported => {
      suggestion := some
        ("Regenerate the description for CPS version " ++ supported) }
  | .unsupportedSchema _ => {
      details := some
        "Only the `simple` version schema can be compared at the moment" }
  | .versionTooOld .. => {
      suggestion := some "Install a newer version of the dependency" }
  | .noVersion .. => {
      suggestion := some "Install a newer version of the dependency" }
  | _ => {}

/-- The advice on a failure. With a single root cause it is the advice on
that. -/
def advice (failure : Failure) : Advice :=
  match failure with
  | .resolutionFailed .. =>
      match failure.rootCauses with
      | [cause] => cause.ownAdvice
      | _ => {
          details := some
            "Each candidate file that was tried is listed with its failure" }
  | _ => failure.ownAdvice

/-- The text of a failure, followed by that of its cause in the file system. -/
def texts : Failure -> List String
  | .unreadable file reason =>
      [(Failure.unreadable file reason).message, reason.message]
  | failure => [failure.message]

end Failure

namespace Problem

/-- The advice on a problem. -/
def advice : Problem -> Advice
  | .failure cause => cause.advice
  | .permissionDenied _ => {
      suggestion := some
        "Check the permissions of the package description files" }
  | .stated _ => {}

/-- The texts of a problem, from the whole to the cause. -/
def texts : Problem -> List String
  | .failure cause => cause.texts
  | .permissionDenied text => [text]
  | .stated text => [text]

end Problem

/-- A problem with the tasks that it came up in, and advice. -/
structure Report extends Advice where
  /-- What went wrong. -/
  problem : Problem
  /-- The tasks that it came up in, outermost first. -/
  tasks : List String := []

namespace Report

/-- The report of a problem, with the advice on it. -/
def of (problem : Problem) (tasks : List String) : Report :=
  { problem.advice with problem, tasks }

/-- The headline: tasks and problem. -/
def headline (report : Report) : String :=
  Text.joinWith ": " (report.tasks ++ report.problem.texts)

/-- A section on a line of its own, if there is one. -/
def titled? (title : String) : Option String -> String
  | some content => "\n" ++ title ++ ": " ++ content
  | none => ""

/-- The report in plain text. -/
def text (report : Report) : String :=
  report.headline ++ titled? "Details" report.details
    ++ titled? "Suggestion" report.suggestion

/-- A text in a style of terminals. -/
def styled (style text : String) : String :=
  "\x1b[" ++ style ++ "m" ++ text ++ "\x1b[0m"

/-- The report for a terminal: the titles in bold red, yellow and green. -/
def coloredText (report : Report) : String :=
  styled "1;31" "error" ++ ": " ++ report.headline
    ++ titled? (styled "33" "details") report.details
    ++ titled? (styled "32" "suggestion") report.suggestion

end Report
end PackageFlags
