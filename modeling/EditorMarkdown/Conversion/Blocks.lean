import EditorMarkdown.Conversion.Registry
import EditorMarkdown.Document.Inline
import EditorMarkdown.Markdown.PlainText

/-!
The types of blocks that are neither lists nor tables, and of what stands in a line.
-/

namespace EditorMarkdown.Conversion

open Document (UnknownType)
open Json (Value)

def plainType (name : String) (group : Document.Group) (kindName : Option String)
    (toMarkdown : ToMarkdown) (fromMarkdown : FromMarkdown) : Extension where
  declares := some (.node ⟨name, group, []⟩)
  entry :=
    { name, kindName, toMarkdown := some toMarkdown, fromMarkdown := some fromMarkdown }

/-- A node of a type without attributes around the children. -/
def enclosing (name : String) : FromMarkdown := fun _ schema children _ => do
  return [← schema.node name .empty children]

def standing (name : String) : FromMarkdown := fun _ schema _ _ => do
  return [← schema.node name .empty []]

def doc : Extension :=
  plainType "doc" .block (some "root") (fun _ children => [.root children]) (enclosing "doc")

/-- An empty paragraph has no markdown form. -/
def paragraphToMarkdown : ToMarkdown := fun _ children =>
  if children.isEmpty then [] else [.paragraph children]

def paragraph : Extension :=
  plainType "paragraph" .block none paragraphToMarkdown (enclosing "paragraph")

def textToMarkdown : ToMarkdown := fun subject _ =>
  match subject.node?.bind Document.Node.text with
  | some text => if text.isEmpty then [] else [.text text]
  | none => []

def textFromMarkdown : FromMarkdown
  | .text value, schema, _, _ =>
      if value.isEmpty then .ok [] else do return [← schema.text value []]
  | _, _, _, _ => .ok []

def text : Extension := plainType "text" .inline none textToMarkdown textFromMarkdown

/-- A heading is a single line, so a break in it is a space of its text. -/
def hardBreakFromMarkdown : FromMarkdown := fun _ schema _ context => do
  if context.headingLevel.isSome then return [← schema.text " " []]
  else return [← schema.node "hardBreak" .empty []]

def hardBreak : Extension :=
  plainType "hardBreak" .inline (some "break") (fun _ _ => [.lineBreak]) hardBreakFromMarkdown

def clampLevel (level : Nat) : Nat := min (max level 1) 6

def headingToMarkdown : ToMarkdown := fun subject children =>
  let level := ((subject.attr? "level").bind Value.natural?).getD 1
  [.heading (UInt8.ofNat (clampLevel level)) (Markdown.foldBreaks children)]

def headingFromMarkdown : FromMarkdown := fun node schema children _ => do
  let depth :=
    match node with
    | .heading depth _ => depth.toNat
    | _ => 1
  let attrs := .ofPresent [("level", .int (clampLevel depth))]
  return [← schema.node "heading" attrs (Document.mergeTexts children)]

def heading : Extension where
  declares := some (.node ⟨"heading", .block, [⟨"level", .int 1⟩]⟩)
  entry :=
    { Entry.named "heading" with
      toMarkdown := some headingToMarkdown, fromMarkdown := some headingFromMarkdown }

def blockquoteFromMarkdown : FromMarkdown := fun _ schema children _ => do
  let content ← schema.wrapInline children
  return [← schema.node "blockquote" .empty content]

def blockquote : Extension :=
  plainType "blockquote" .block none (fun _ children => [.blockquote children])
    blockquoteFromMarkdown

def calloutToMarkdown : ToMarkdown := fun subject children =>
  let kind := (subject.attrString? "kind").bind Markdown.CalloutKind.ofName?
  [.callout (kind.getD .info) children]

def calloutFromMarkdown : FromMarkdown := fun node schema children _ => do
  let kind : Value :=
    match node with
    | .callout kind _ => .string kind.name
    | _ => .null
  let content ← schema.wrapInline children
  return [← schema.node "callout" (.ofPresent [("kind", kind)]) content]

def callout : Extension where
  declares := some (.node ⟨"callout", .block, [⟨"kind", .string "info"⟩]⟩)
  entry :=
    { Entry.named "callout" with
      toMarkdown := some calloutToMarkdown, fromMarkdown := some calloutFromMarkdown }

def codeBlockToMarkdown : ToMarkdown := fun subject _ =>
  let value := (subject.node?.map Document.Node.textContent).getD ""
  let lang := (subject.attrString? "language").filter fun lang => !lang.isEmpty
  [.code lang none value]

def codeBlockFromMarkdown : FromMarkdown
  | .code lang _ value, schema, _, _ => do
      let content ← if value.isEmpty then pure [] else do pure [← schema.text value []]
      let attrs := .ofPresent [("language", Json.nullable .string lang)]
      return [← schema.node "codeBlock" attrs content]
  | _, _, _, _ => .ok []

def codeBlock : Extension where
  declares := some (.node ⟨"codeBlock", .block, [⟨"language", .null⟩]⟩)
  entry :=
    { name := "codeBlock", kindName := some "code", toMarkdown := some codeBlockToMarkdown,
      fromMarkdown := some codeBlockFromMarkdown }

def horizontalRule : Extension :=
  plainType "horizontalRule" .block (some "thematicBreak") (fun _ _ => [.thematicBreak])
    (standing "horizontalRule")

def imageToMarkdown : ToMarkdown := fun subject _ =>
  let url := (subject.attrString? "src").getD ""
  let alt := (subject.attrString? "alt").getD ""
  [.image url (subject.attrString? "title") alt]

def imageFromMarkdown : FromMarkdown
  | .image url title alt, schema, _, _ => do
      let alt : Value := if alt.isEmpty then .null else .string alt
      let attrs := .ofPresent
        [("src", .string url), ("alt", alt), ("title", Json.nullable .string title)]
      return [← schema.node "image" attrs []]
  | _, _, _, _ => .ok []

def image : Extension where
  declares :=
    some (.node ⟨"image", .inline, [⟨"src", .null⟩, ⟨"alt", .null⟩, ⟨"title", .null⟩]⟩)
  entry :=
    { Entry.named "image" with
      toMarkdown := some imageToMarkdown, fromMarkdown := some imageFromMarkdown }

def blockExtensions : List Extension :=
  [doc, paragraph, text, hardBreak, heading, blockquote, callout, codeBlock, horizontalRule,
    image]

end EditorMarkdown.Conversion
