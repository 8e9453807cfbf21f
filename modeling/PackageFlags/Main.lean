import PackageFlags.CommandLine.Run

/-!
# The program

The arguments and the environment are read, the description files that can matter
are copied into a file tree, and the command line is carried out on it. The files
that can matter are those for the packages that are named and, from each file on,
for those that it requires.
-/

namespace PackageFlags
namespace CommandLine

/-- The name and version of the program. -/
def versionText : String := "cps-config 0.1.0"

/-- What the program can be asked. -/
def helpText : String :=
  Text.joinWith "\n"
    ["cps-config is a utility for querying and using installed libraries.",
      "",
      "Usage: cps-config [OPTIONS] <PACKAGES>...",
      "",
      "      --cflags                  Output all compiler flags",
      "      --cflags-only-I           Output -I flags",
      "      --cflags-only-other       Output the other compiler flags",
      "      --libs                    Output all linker flags",
      "      --libs-only-L             Output -L flags",
      "      --libs-only-l             Output what is linked",
      "      --libs-only-other         Output the other linker flags",
      "      --modversion              Output the version of each package",
      "      --component <NAME>        Use this component; repeatable",
      "      --format <FORMAT>         Output format: pkgconf or json",
      "      --language <LANGUAGE>     Language: c, c++ or fortran",
      "      --print-errors            Report errors",
      "      --errors-to-stdout        Report errors on standard output",
      "      --prefix-variable <PATH>  Installation root of every package",
      "      --debug                   Report everything",
      "  -h, --help                    Output this help",
      "  -V, --version                 Output the version of the program"]

/-- A refusal in words. -/
def Refusal.message : Refusal -> String
  | .noPackages => "no packages are named"
  | .unknownArgument argument => "unknown argument '" ++ argument ++ "'"
  | .invalidValue .format => "'--format' takes pkgconf or json"
  | .invalidValue .component => "'--component' takes a value"
  | .invalidValue .language => "'--language' takes a value"
  | .invalidValue .root => "'--prefix-variable' takes a path"
  | .invalidLanguage word => (Unrecognized.language word).message
  | .repeated => "an argument is given more than once"
  | .unexpectedValue => "a value is given to an argument that takes none"
  | .help => helpText
  | .version => versionText

/-- The variables that the environment is read from. -/
def readVariables : List String :=
  [Environment.cpsPathVariable, Environment.rootPathVariable,
    Environment.legacyPathVariable] ++ Environment.debugVariables

/-- The environment of the process. -/
def processEnvironment : IO Environment := do
  let values ← readVariables.mapM fun name => do
    return (name, ← IO.getEnv name)
  return Environment.ofVariables fun name =>
    (values.lookup name).bind id

/-- The names on the way down to the working directory of the process. -/
def processDirectory : IO Location := do
  let current ← IO.currentDir
  return (Path.mk current.toString).steps.filterMap fun step =>
    match step with
    | .down name => some name
    | _ => none

/-- The paths at which a description for a name can stand. -/
def possiblePaths (search : SearchPath) (name : String) : List Path :=
  ⟨name⟩ :: search.directories.map fun (directory, format) =>
    directory.join ⟨name ++ "." ++ format.extension⟩

/-- Copy a file into a tree, if there is one at a path. -/
def copyFile (files : FileSystem) (path : Path) : IO FileSystem := do
  try
    return files.write path (← IO.FS.readBinFile path.text)
  catch problem =>
    match problem with
    | .permissionDenied .. =>
        let (prepared, directory) := files.createDirectories path.directory
        match path.fileName? with
        | some name =>
            return prepared.put (directory ++ [name])
              (.sealed "Permission denied (os error 13)")
        | none => return files
    | _ => return files

/-- Copy the files for names and for what they require into a tree. -/
partial def copyDescriptions
    (search : SearchPath)
    (files : FileSystem)
    (known : List String) : List String -> IO FileSystem
  | [] => return files
  | name :: rest => do
      if name ∈ known then
        copyDescriptions search files known rest
      else
        let mut copied := files
        for path in possiblePaths search name do
          copied ← copyFile copied path
        let required := (possiblePaths search name).flatMap fun path =>
          match copied.read path with
          | .ok text =>
              Description.requiredInCps text
                ++ Description.requiredInLegacy text
          | .error _ => []
        copyDescriptions search copied (name :: known) (required ++ rest)

/-- Print what a run came to. -/
def printOutcome
    (arguments : Arguments)
    (environment : Environment)
    (outcome : Outcome) : IO Unit := do
  for warning in outcome.warnings do
    IO.eprintln (" WARN " ++ warning.message)
  if outcome.output ≠ "" then
    IO.println outcome.output
  if arguments.printsErrors environment then
    for report in outcome.reports do
      if arguments.has .errorsToStdout then
        IO.println report.text
      else
        IO.eprintln report.coloredText

/-- Carry out a command line in the process. -/
def execute (words : List String) : IO UInt32 := do
  match Arguments.parse words with
  | .error refusal =>
      if refusal.exitCode = 0 then
        IO.println refusal.message
      else
        IO.eprintln ("error: " ++ refusal.message)
      return refusal.exitCode.toUInt32
  | .ok arguments =>
      let environment ← processEnvironment
      let search := SearchPath.ofEnvironment environment Layout.defaultRoots
      let files ← copyDescriptions search
        (FileSystem.emptyAt (← processDirectory)) [] arguments.packages
      let outcome := run arguments
        { files := files, search := search }
      printOutcome arguments environment outcome
      return outcome.exitCode.toUInt32

end CommandLine
end PackageFlags

/-- The entry point of the program. -/
def main (arguments : List String) : IO UInt32 :=
  PackageFlags.CommandLine.execute arguments
