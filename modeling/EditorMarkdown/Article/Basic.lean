import EditorMarkdown.Conversion.Tree
import EditorMarkdown.Markdown.Callout
import EditorMarkdown.Markdown.FrontMatter
import EditorMarkdown.Source.Text
import EditorMarkdown.Text.TaskMarker
import EditorMarkdown.Writer.Numbers

/-!
Articles: a document with the front matter of its text, and the ways between texts, markdown trees
and articles.
-/

namespace EditorMarkdown

open Conversion (Registry)
open Document (UnknownType)

/-- A document with its front matter, which is empty if there is none. -/
structure Article where
  frontMatter : String
  document : Document.Node
  deriving Repr, Inhabited

/-- The front matter of a text and the children of its markdown root, callouts marked. With `tidy`,
escaped task markers are unescaped first. -/
def Markdown.ofText (tidy : Bool) (text : String) : String × List Markdown.Node :=
  let source := if tidy then String.ofList (Text.unescapeTaskMarkers text.toList) else text
  let (frontMatter, children) := Markdown.takeFrontMatter (Markdown.Node.ofText source)
  (frontMatter, Markdown.markCallouts children)

namespace Article

def ofText (registry : Registry) (tidy : Bool) (text : String) : Except UnknownType Article :=
  let (frontMatter, children) := Markdown.ofText tidy text
  match registry.toDocument children with
  | .error unknown => .error unknown
  | .ok document => .ok { frontMatter, document }

end Article

def Document.Node.toText (registry : Registry) (frontMatter : Option String)
    (document : Document.Node) : String :=
  Markdown.toDocumentText frontMatter (Markdown.markCallouts (registry.toMarkdown document))

/-- A run that writes a document. The text is `toText` of the document if there is one. -/
def Document.Node.write (sums : Sums) (registry : Registry) (frontMatter : Option String)
    (document : Document.Node) : Except Fault String :=
  Markdown.writeDocument sums frontMatter (Markdown.markCallouts (registry.toMarkdown document))

def Article.toText (registry : Registry) (article : Article) : String :=
  article.document.toText registry (some article.frontMatter)

end EditorMarkdown
