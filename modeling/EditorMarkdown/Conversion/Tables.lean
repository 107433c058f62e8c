import EditorMarkdown.Conversion.Registry
import EditorMarkdown.Document.Inline

/-!
The types of tables, rows and cells. A cell of a document holds paragraphs and a cell of markdown
one line, so paragraphs become lines between breaks. The cells of the first row are headers, and
every cell has the alignment of its column.
-/

namespace EditorMarkdown.Conversion

open Document (Schema UnknownType)
open Json (Value)
open Markdown (Align)

def columnAligns (table : Document.Node) : List (Option Align) :=
  match table.content with
  | [] => []
  | row :: _ => row.content.map fun cell => (cell.attrString? "align").bind Align.ofName?

def tableToMarkdown : ToMarkdown := fun subject children =>
  [.table ((subject.node?.map columnAligns).getD []) children]

def alignCell (align : Option Align) (cell : Document.Node) : Document.Node :=
  let value := Json.nullable (fun align => .string (Align.name align)) align
  { cell with attrs := cell.attrs.insert "align" value }

def alignRow (align : List (Option Align)) (row : Document.Node) : Document.Node :=
  { row with
    content := row.content.mapIdx fun column cell => alignCell (align[column]?.getD none) cell }

def tableFromMarkdown : FromMarkdown := fun node schema children _ => do
  let rows :=
    match node with
    | .table align _ => children.map (alignRow align)
    | _ => children
  return [← schema.node "table" .empty rows]

def table : Extension where
  declares := some (.node ⟨"table", .block, []⟩)
  entry :=
    { Entry.named "table" with
      toMarkdown := some tableToMarkdown, fromMarkdown := some tableFromMarkdown }

def rowFromMarkdown : FromMarkdown := fun _ schema children _ => do
  return [← schema.node "tableRow" .empty children]

def tableRow : Extension where
  declares := some (.node ⟨"tableRow", .block, []⟩)
  entry :=
    { Entry.named "tableRow" with
      toMarkdown := some fun _ children => [.tableRow children]
      fromMarkdown := some rowFromMarkdown }

def inlineForm : Markdown.Node → List Markdown.Node
  | .paragraph children => children
  | node => if node.isInline then [node] else node.children

def joinBlocks (blocks : List Markdown.Node) : List Markdown.Node :=
  blocks.foldl (fun line block =>
    (if line.isEmpty then line else line ++ [.lineBreak]) ++ inlineForm block) []

def cellToMarkdown : ToMarkdown := fun _ children => [.tableCell (joinBlocks children)]

/-- The pieces of a line between its breaks; there is always at least one. -/
def splitBreaks : List Document.Node → List (List Document.Node)
  | [] => [[]]
  | node :: rest =>
      if node.type = "hardBreak" then [] :: splitBreaks rest
      else
        match splitBreaks rest with
        | [] => [[node]]
        | piece :: pieces => (node :: piece) :: pieces

def isHeaderCell (context : Context) : Bool :=
  (context.frame? 1).any fun row => row.kind = .tableRow && row.index = 0

def cellFromMarkdown : FromMarkdown := fun _ schema children context => do
  let name := if isHeaderCell context then "tableHeader" else "tableCell"
  let paragraphs ← (splitBreaks children).mapM fun piece => schema.node "paragraph" .empty piece
  return [← schema.node name .empty paragraphs]

def tableCell : Extension where
  declares := some (.node ⟨"tableCell", .block, [⟨"align", .null⟩]⟩)
  entry :=
    { Entry.named "tableCell" with
      toMarkdown := some cellToMarkdown, fromMarkdown := some cellFromMarkdown }

def tableHeader : Extension where
  declares := some (.node ⟨"tableHeader", .block, [⟨"align", .null⟩]⟩)
  entry :=
    { Entry.named "tableHeader" with
      kindName := some "tableCell", toMarkdown := some cellToMarkdown }

def tableExtensions : List Extension := [table, tableRow, tableCell, tableHeader]

end EditorMarkdown.Conversion
