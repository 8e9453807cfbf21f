import PackageFlags.Flags.Basic
import PackageFlags.Json.Writer

/-!
# Flags as a JSON document

All flags are written, for every language that has settings. A definition is
written without a value if it has none, and says only if it undefines.
-/

namespace PackageFlags

/-- Strings as a JSON array. -/
def Json.ofStrings (list : List String) : Json.Value :=
  .array (list.map Json.Value.string)

namespace PerLanguage

/-- Settings as a JSON object with a member for each language that has a
list. -/
def toJson
    {α : Type}
    (element : α -> Json.Value)
    (settings : PerLanguage α) : Json.Value :=
  .object (settings.toList.map fun (language, list) =>
    (language.name, .array (list.map element)))

end PerLanguage

namespace Definition

/-- A definition as a JSON object. -/
def toJson (definition : Definition) : Json.Value :=
  .object (("name", .string definition.name)
    :: (match definition.value with
        | some value => [("value", .string value)]
        | none => [])
    ++ (if definition.undefine then [("undefine", .bool true)] else []))

end Definition

namespace Flags

/-- Flags as a JSON object. -/
def toJson (flags : Flags) : Json.Value :=
  .object
    [("version", .string flags.version),
      ("compile_flags", flags.compileFlags.toJson .string),
      ("includes", flags.includes.toJson .string),
      ("definitions", flags.definitions.toJson Definition.toJson),
      ("link_flags", Json.ofStrings flags.linkFlags),
      ("link_libraries", Json.ofStrings flags.linkLibraries),
      ("link_location", Json.ofStrings flags.linkLocations)]

/-- Flags as the text of a JSON document. -/
def document (flags : Flags) : String :=
  flags.toJson.pretty

end Flags
end PackageFlags
