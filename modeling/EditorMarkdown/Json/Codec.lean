import EditorMarkdown.Json.Printer
import EditorMarkdown.Json.Reader

/-!
Codecs: a way to write values as texts together with a way to read them.
-/

namespace EditorMarkdown.Json

structure Codec where
  write : (pretty : Bool) → Value → String
  read? : String → Option Value

namespace Codec

def standard : Codec where
  write pretty value := if pretty then value.toPrettyText else value.toText
  read? := Value.ofText?

/-- Whether a value is read from the line or the lines it is written on. -/
def Keeps (codec : Codec) (value : Value) : Prop :=
  ∀ pretty, codec.read? (codec.write pretty value ++ "\n") = some value

end Codec

end EditorMarkdown.Json
