import EditorMarkdown.Json.Value
import EditorMarkdown.Toml.Reader

/-!
Settings: what a configuration file says, and what holds in the end.
-/

namespace EditorMarkdown.Command

/-- What a configuration file says; what it does not mention is left open. -/
structure Configuration where
  frontMatter : Option Bool
  pretty : Option Bool
  fixups : Option Bool
  deriving DecidableEq, Repr, Inhabited

namespace Configuration

def fileName : String := "_mdoc.toml"

def empty : Configuration := ⟨none, none, none⟩

private def value? (name : String) (entries : List (String × Toml.Value)) : Option Toml.Value :=
  (entries.find? fun entry => entry.1 = name).map (·.2)

private def section? (name : String) (entries : List (String × Toml.Value)) :
    Option (List (String × Toml.Value)) :=
  match value? name entries with
  | none => some []
  | some value => value.table?

private def flag? (name : String) (entries : List (String × Toml.Value)) :
    Option (Option Bool) :=
  match value? name entries with
  | none => some none
  | some value => value.bool?.map some

def ofText? (text : String) : Option Configuration := do
  let entries ← Toml.ofText? text
  let output ← section? "output" entries
  let reading ← section? "parse" entries
  return {
    frontMatter := ← flag? "front_matter" output
    pretty := ← flag? "pretty" output
    fixups := ← flag? "fixups" reading }

/-- A configuration file that says what holds anyway. -/
def sample : String :=
  "#:schema crates/mdoc-cli/schema/mdoc.schema.json\n\n" ++
    "[output]\nfront_matter = true\npretty = false\n\n" ++
    "[parse]\nfixups = true\n"

open Json (Value)

private def described (text : String) (fields : List (String × Value)) : Value :=
  .object (("description", .string text) :: fields)

private def reference (text name : String) : Value :=
  described text [("$ref", .string ("#/$defs/" ++ name))]

private def optionalFlag (text : String) : Value :=
  described text [("type", .array [.string "boolean", .string "null"])]

private def properties (fields : List (String × Value)) : List (String × Value) :=
  [("type", .string "object"), ("properties", .object fields)]

def schema : Value :=
  .object
    ([("$schema", .string "https://json-schema.org/draft/2020-12/schema"),
        ("title", .string "Config"),
        ("description", .string "Root configuration structure")] ++
      properties
        [("output", reference "Output configuration" "OutputConfig"),
          ("parse", reference "Markdown parsing configuration" "ParseConfig")] ++
      [("$defs", .object
        [("OutputConfig", described "Output configuration" (properties
            [("front_matter", optionalFlag
                "Keep YAML front matter in both directions (default: true)"),
              ("pretty", optionalFlag "Pretty-print document JSON (default: false)")])),
          ("ParseConfig", described "Markdown parsing configuration" (properties
            [("fixups", optionalFlag (
                "Run text fixups such as unescaping \x60\\[ ]\x60 task markers " ++
                  "(default: true)"))]))])])

end Configuration

structure Settings where
  /-- Whether front matter is kept. -/
  frontMatter : Bool
  /-- Whether JSON is written on many lines. -/
  pretty : Bool
  /-- Whether escaped task markers are unescaped. -/
  fixups : Bool
  quiet : Bool
  deriving DecidableEq, Repr, Inhabited

end EditorMarkdown.Command
