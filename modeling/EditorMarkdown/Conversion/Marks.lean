import EditorMarkdown.Conversion.Registry
import EditorMarkdown.Document.Inline
import EditorMarkdown.Markdown.PlainText

/-!
The types of marks. They are declared in the order of their ranks: a link encloses bold text, bold
text encloses italic text, and code is innermost.
-/

namespace EditorMarkdown.Conversion

open Document (Schema UnknownType)
open Json (Value)

def enclose (outer : List Markdown.Node → Markdown.Node) (children : List Markdown.Node) :
    List Markdown.Node :=
  if children.isEmpty then [] else [outer children]

/-- Marks what stands in a line with a mark without attributes. -/
def applyPlainMark (name : String) : FromMarkdown := fun _ schema children _ => do
  let mark ← schema.mark name .empty
  return schema.markInline mark children

def plainMark (name kindName : String) (outer : List Markdown.Node → Markdown.Node) :
    Extension where
  declares := some (.mark ⟨name, []⟩)
  entry :=
    { name, kindName := some kindName, toMarkdown := some fun _ children => enclose outer children,
      fromMarkdown := some (applyPlainMark name) }

def bold : Extension := plainMark "bold" "strong" .strong

def italic : Extension := plainMark "italic" "emphasis" .emphasis

def strike : Extension := plainMark "strike" "delete" .delete

def linkToMarkdown : ToMarkdown := fun subject children =>
  let url := (subject.attrString? "href").getD ""
  enclose (.link url (subject.attrString? "title")) children

def linkFromMarkdown : FromMarkdown
  | .link url title _, schema, children, _ => do
      let mark ← schema.mark "link"
        (.ofPresent [("href", .string url), ("title", Json.nullable .string title)])
      return schema.markInline mark children
  | _, _, children, _ => .ok children

def link : Extension where
  declares := some (.mark ⟨"link", [⟨"href", .null⟩, ⟨"title", .null⟩]⟩)
  entry :=
    { Entry.named "link" with
      toMarkdown := some linkToMarkdown, fromMarkdown := some linkFromMarkdown }

/-- Inline code has no children, so the text in it is put together. -/
def codeToMarkdown : ToMarkdown := fun _ children =>
  let value := Markdown.plainTexts children
  if value.isEmpty then [] else [.inlineCode value]

def codeFromMarkdown : FromMarkdown
  | .inlineCode value, schema, _, _ =>
      if value.isEmpty then .ok []
      else do
        let mark ← schema.mark "code" .empty
        return [← schema.text value [mark]]
  | _, _, _, _ => .ok []

def code : Extension where
  declares := some (.mark ⟨"code", []⟩)
  entry :=
    { name := "code", kindName := some "inlineCode", toMarkdown := some codeToMarkdown,
      fromMarkdown := some codeFromMarkdown }

def markExtensions : List Extension := [link, bold, italic, strike, code]

end EditorMarkdown.Conversion
