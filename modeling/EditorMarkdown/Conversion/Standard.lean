import EditorMarkdown.Conversion.Blocks
import EditorMarkdown.Conversion.Lists
import EditorMarkdown.Conversion.Marks
import EditorMarkdown.Conversion.Tables

/-!
The standard registry.
-/

namespace EditorMarkdown.Conversion

/-- The standard types, marks first in the order of their ranks. -/
def standardExtensions : List Extension :=
  markExtensions ++ blockExtensions ++ listExtensions ++ tableExtensions

def standardExtension? (name : String) : Option Extension :=
  standardExtensions.find? fun extension => extension.entry.name = name

def Registry.standard : Registry := .ofExtensions standardExtensions

end EditorMarkdown.Conversion
