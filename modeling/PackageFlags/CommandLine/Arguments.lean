import PackageFlags.Language
import PackageFlags.Path

/-!
# Command line arguments

Arguments are read one by one. A switch stands for itself; a setting takes the
value attached to it, or else the argument after it. Such a value is only looked
at when the next argument that is recognized comes up, or at the end. What is
left are the names of packages, and after `--` everything is. Switches and
settings may be given once, components any number of times.
-/

namespace PackageFlags
namespace CommandLine

/-- The forms of output. -/
inductive OutputFormat
  /-- Flags on one line. -/
  | line
  /-- All flags as a JSON document. -/
  | json
  deriving DecidableEq, Repr

/-- The output format that a word names. -/
def OutputFormat.ofName? : String -> Option OutputFormat
  | "pkgconf" => some .line
  | "json" => some .json
  | _ => none

/-- Arguments that stand for themselves. -/
inductive Switch
  | cflags
  | cflagsOnlyIncludes
  | cflagsOnlyOther
  | libs
  | libsOnlySearch
  | libsOnlyLink
  | libsOnlyOther
  | modVersion
  | printErrors
  | errorsToStdout
  | debug
  deriving DecidableEq, Repr

/-- Arguments that take a value. -/
inductive Setting
  | component
  | format
  | language
  | root
  deriving DecidableEq, Repr

/-- What an argument with two dashes can be. -/
inductive Keyword
  | switch (switch : Switch)
  | setting (setting : Setting)
  | help
  | version
  deriving DecidableEq, Repr

/-- The keyword that follows two dashes. -/
def Keyword.ofName? : String -> Option Keyword
  | "cflags" => some (.switch .cflags)
  | "cflags-only-I" => some (.switch .cflagsOnlyIncludes)
  | "cflags-only-other" => some (.switch .cflagsOnlyOther)
  | "libs" => some (.switch .libs)
  | "libs-only-L" => some (.switch .libsOnlySearch)
  | "libs-only-l" => some (.switch .libsOnlyLink)
  | "libs-only-other" => some (.switch .libsOnlyOther)
  | "modversion" => some (.switch .modVersion)
  | "print-errors" => some (.switch .printErrors)
  | "errors-to-stdout" => some (.switch .errorsToStdout)
  | "debug" => some (.switch .debug)
  | "component" => some (.setting .component)
  | "format" => some (.setting .format)
  | "language" => some (.setting .language)
  | "prefix-variable" => some (.setting .root)
  | "help" => some .help
  | "version" => some .version
  | _ => none

/-- Why arguments do not lead to a run. -/
inductive Refusal
  /-- No package is named. -/
  | noPackages
  /-- An argument is not known. -/
  | unknownArgument (argument : String)
  /-- A setting has no value, or one that it does not take. -/
  | invalidValue (setting : Setting)
  /-- The language is not known. -/
  | invalidLanguage (word : String)
  /-- An argument that may be given once is given again. -/
  | repeated
  /-- A value is attached to an argument that takes none. -/
  | unexpectedValue
  /-- Help is asked for. -/
  | help
  /-- The version is asked for. -/
  | version
  deriving DecidableEq, Repr

/-- The code that the program exits with when arguments do not lead to a
run. -/
def Refusal.exitCode : Refusal -> Nat
  | .help => 0
  | .version => 0
  | _ => 2

/-- What the arguments say. -/
structure Arguments where
  /-- The switches that are given. -/
  switches : List Switch := []
  /-- The components that are named. -/
  components : List String := []
  /-- The output format, if it is given. -/
  format : Option OutputFormat := none
  /-- The language, if it is given. -/
  language : Option Language := none
  /-- The installation root, if it is given. -/
  root : Option Path := none
  /-- The packages that are named. -/
  packages : List String := []
  deriving DecidableEq, Repr

namespace Arguments

/-- Whether a switch is given. -/
def has (arguments : Arguments) (switch : Switch) : Bool :=
  switch ∈ arguments.switches

/-- Add a switch. -/
def addSwitch
    (arguments : Arguments)
    (switch : Switch) : Except Refusal Arguments :=
  if arguments.has switch then
    .error .repeated
  else
    .ok { arguments with switches := arguments.switches ++ [switch] }

/-- Whether a setting may not be given again. -/
def isSettled (arguments : Arguments) : Setting -> Bool
  | .component => false
  | .format => arguments.format.isSome
  | .language => arguments.language.isSome
  | .root => arguments.root.isSome

/-- Give a setting a value. -/
def assign
    (arguments : Arguments)
    (setting : Setting)
    (value : String) : Except Refusal Arguments :=
  if arguments.isSettled setting then
    .error .repeated
  else
    match setting with
    | .component =>
        .ok { arguments with components := arguments.components ++ [value] }
    | .format =>
        match OutputFormat.ofName? value with
        | some format => .ok { arguments with format := some format }
        | none => .error (.invalidValue .format)
    | .language =>
        match Language.ofName? value with
        | some language => .ok { arguments with language := some language }
        | none => .error (.invalidLanguage value)
    | .root =>
        if value = "" then
          .error (.invalidValue .root)
        else
          .ok { arguments with root := some ⟨value⟩ }

end Arguments

/-- The form of an argument. -/
inductive Word
  /-- Two dashes. -/
  | endOfOptions
  /-- Two dashes and a name, with a value behind an equals sign. -/
  | long (name : String) (value : Option String)
  /-- A dash and a letter. -/
  | short (letter : Char)
  /-- Anything else. -/
  | plain (text : String)
  deriving DecidableEq, Repr

/-- The form of an argument in front of the end of the options. -/
def Word.of (argument : String) : Word :=
  match argument.toList with
  | ['-', '-'] => .endOfOptions
  | '-' :: '-' :: _ =>
      let body := (Text.dropStart "--" argument).getD ""
      match Text.splitOnce '=' body with
      | some (name, value) => .long name (some value)
      | none => .long body none
  | '-' :: letter :: _ => .short letter
  | _ => .plain argument

/-- The arguments read so far. -/
structure Reading where
  /-- What they say. -/
  arguments : Arguments := {}
  /-- A setting whose value has not been looked at, with the value if it has
  come up. -/
  pending : Option (Setting × Option String) := none
  /-- Whether the options have ended. -/
  ended : Bool := false
  deriving DecidableEq, Repr

namespace Reading

/-- Look at the value of the pending setting. -/
def settle (reading : Reading) : Except Refusal Reading :=
  match reading.pending with
  | none => .ok reading
  | some (setting, none) => .error (.invalidValue setting)
  | some (setting, some value) =>
      (reading.arguments.assign setting value).map fun arguments =>
        { reading with arguments, pending := none }

/-- Add a value: it belongs to the pending setting if that has none and the
options have not ended, and is a package otherwise. -/
def addValue (reading : Reading) (text : String) : Except Refusal Reading :=
  match reading.ended, reading.pending with
  | false, some (setting, none) =>
      .ok { reading with pending := some (setting, some text) }
  | _, _ =>
      reading.settle.map fun settled =>
        { settled with
          arguments := { settled.arguments with
            packages := settled.arguments.packages ++ [text] } }

/-- Add a keyword with the value attached to it. -/
def addKeyword
    (reading : Reading) :
    Keyword -> Option String -> Except Refusal Reading
  | .setting setting, none => do
      return { ← reading.settle with pending := some (setting, none) }
  | .setting setting, some value => do
      let settled ← reading.settle
      return { settled with
        arguments := ← settled.arguments.assign setting value }
  | _, some _ => .error .unexpectedValue
  | .switch switch, none => do
      let settled ← reading.settle
      return { settled with arguments := ← settled.arguments.addSwitch switch }
  | .help, none => do
      let _ ← reading.settle
      throw .help
  | .version, none => do
      let _ ← reading.settle
      throw .version

/-- Add an argument. -/
def add (reading : Reading) (argument : String) : Except Refusal Reading :=
  if reading.ended then
    reading.addValue argument
  else
    match Word.of argument with
    | .endOfOptions => .ok { reading with ended := true }
    | .plain text => reading.addValue text
    | .short 'h' => reading.addKeyword .help none
    | .short 'V' => reading.addKeyword .version none
    | .short _ => .error (.unknownArgument argument)
    | .long name value =>
        match Keyword.ofName? name with
        | some keyword => reading.addKeyword keyword value
        | none => .error (.unknownArgument argument)

end Reading

/-- Read the arguments after the name of the program. -/
def Arguments.parse (arguments : List String) : Except Refusal Arguments := do
  let read ← (← arguments.foldlM Reading.add {}).settle
  if read.arguments.packages.isEmpty then
    throw .noPackages
  return read.arguments

end CommandLine
end PackageFlags
