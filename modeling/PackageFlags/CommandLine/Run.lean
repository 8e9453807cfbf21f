import PackageFlags.CommandLine.Arguments
import PackageFlags.Flags.Document
import PackageFlags.Flags.Line
import PackageFlags.Query
import PackageFlags.Report

/-!
# Carrying out a command line

Each package is asked for on a graph of its own. The texts of those that can be
resolved are put together, and the others are reported.
-/

namespace PackageFlags
namespace CommandLine
namespace Arguments

/-- What to print of the flags. -/
def printOptions (arguments : Arguments) : PrintOptions where
  compileFlags :=
    arguments.has .cflags || arguments.has .cflagsOnlyOther
  includes := arguments.has .cflags || arguments.has .cflagsOnlyIncludes
  definitions := arguments.has .cflags || arguments.has .cflagsOnlyOther
  searchDirectories := arguments.has .libs || arguments.has .libsOnlySearch
  links := arguments.has .libs || arguments.has .libsOnlyLink
  otherLinkFlags := arguments.has .libs || arguments.has .libsOnlyOther
  versionOnly := arguments.has .modVersion
  language := arguments.language.getD .c

/-- The format of the output. -/
def outputFormat (arguments : Arguments) : OutputFormat :=
  arguments.format.getD .line

/-- Whether everything that is done should be logged. -/
def isDebug (arguments : Arguments) (environment : Environment) : Bool :=
  arguments.has .debug || environment.debugSpew

/-- The level to log at, if it is not left to the environment. -/
def logLevel
    (arguments : Arguments)
    (environment : Environment) : Option String :=
  if arguments.isDebug environment then some "debug" else none

/-- Whether failures are reported. -/
def printsErrors
    (arguments : Arguments)
    (environment : Environment) : Bool :=
  arguments.has .printErrors || arguments.isDebug environment

/-- The query for a package. Without components its default ones are used. -/
def query (arguments : Arguments) (name : String) : Query where
  name
  components := arguments.components
  useDefaults := arguments.components.isEmpty
  root := arguments.root

/-- The text for the flags of a package. -/
def render (arguments : Arguments) (flags : Flags) : String :=
  match arguments.outputFormat with
  | .line => flags.line arguments.printOptions
  | .json => flags.document

/-- What stands between the texts of packages. -/
def separator (arguments : Arguments) : String :=
  match arguments.outputFormat, arguments.has .modVersion with
  | .line, false => " "
  | _, _ => "\n"

end Arguments

/-- What a run comes to. -/
structure Outcome where
  /-- The text to print, without a line end after it. -/
  output : String
  /-- The reports of packages that could not be resolved, in order. -/
  reports : List Report
  /-- The warnings, in order. -/
  warnings : List Warning

namespace Outcome

/-- The code that the program exits with. -/
def exitCode (outcome : Outcome) : Nat :=
  if outcome.reports.isEmpty then 0 else 1

end Outcome

/-- The task of resolving a package. -/
def resolvingTask (name : String) : String :=
  "Failed to resolve package `" ++ name ++ "`"

/-- The answers for the packages of a command line, by name. -/
def answers
    (arguments : Arguments)
    (world : World) : List (String × Answer) :=
  arguments.packages.map fun name =>
    (name, (arguments.query name).find world)

/-- The text for a package that could be resolved. -/
def renderedText?
    (arguments : Arguments)
    (answer : Answer) : Option String :=
  match answer.outcome with
  | .ok flags => some (arguments.render flags)
  | .error _ => none

/-- The report of a package that could not be resolved. -/
def report? (name : String) (answer : Answer) : Option Report :=
  match answer.outcome with
  | .ok _ => none
  | .error failure => some (Report.of (.failure failure) [resolvingTask name])

/-- Carry out a command line. Texts that are empty are left out. -/
def run (arguments : Arguments) (world : World) : Outcome :=
  let answered := answers arguments world
  { output := Text.joinWith arguments.separator
      ((answered.filterMap fun (_, answer) =>
        renderedText? arguments answer).filter (· ≠ ""))
    reports := answered.filterMap fun (name, answer) => report? name answer
    warnings := answered.flatMap fun (_, answer) => answer.warnings }

end CommandLine
end PackageFlags
