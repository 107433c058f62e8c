import EditorMarkdown.Proofs.Conversion.Standard
import EditorMarkdown.Proofs.Document.Ranks
import Mathlib.Data.List.Chain

/-!
Canonical documents of the standard types: those in which nothing is written in a way that markdown
cannot tell from another one.
-/

namespace EditorMarkdown.Document.Node

open Json (Value)

def typed (type : String) (fields : List (String × Value)) (content : List Node) : Node :=
  { plain type content with attrs := .ofFields fields }

def ofText (value : String) (marks : List Mark) : Node :=
  { plain "text" [] with marks, text := some value }

end EditorMarkdown.Document.Node

namespace EditorMarkdown.Conversion

open Document (Mark)
open Markdown (Align CalloutKind)

/-! What stands in a line. -/

def linkMark (href : String) (title : Option String) : Mark :=
  ⟨"link", .ofFields [("href", .string href), ("title", Json.nullable .string title)]⟩

inductive CanonicalMark : Mark → Prop
  | link (href : String) (title : Option String) : CanonicalMark (linkMark href title)
  | bold : CanonicalMark ⟨"bold", .empty⟩
  | italic : CanonicalMark ⟨"italic", .empty⟩
  | strike : CanonicalMark ⟨"strike", .empty⟩
  | code : CanonicalMark ⟨"code", .empty⟩

inductive CanonicalLeaf : Document.Node → Prop
  | text {value : String} (filled : value ≠ "") : CanonicalLeaf (.ofText value [])
  | hardBreak : CanonicalLeaf (.plain "hardBreak" [])
  | image {src : String} {alt title : Option String} (filled : alt ≠ some "") :
      CanonicalLeaf (.typed "image"
        [("src", .string src), ("alt", Json.nullable .string alt),
          ("title", Json.nullable .string title)] [])

structure CanonicalInline (node : Document.Node) : Prop where
  leaf : CanonicalLeaf { node with marks := [] }
  marks : ∀ mark ∈ node.marks, CanonicalMark mark
  ranked : standardSchema.Ranked node.marks
  code : node.hasMark "code" → node.isText

/-- The nodes of a line; two neighbours with code would become one. -/
structure CanonicalLine (line : List Document.Node) : Prop where
  inline : ∀ node ∈ line, CanonicalInline node
  apart : line.IsChain fun first second => ¬(first.hasMark "code" ∧ second.hasMark "code")

def Unbroken (line : List Document.Node) : Prop := ∀ node ∈ line, node.type ≠ "hardBreak"

def Merged (line : List Document.Node) : Prop :=
  line.IsChain fun first second => ¬(first.isText ∧ second.isText ∧ first.marks = second.marks)

/-! Cells of tables. -/

structure Cell where
  align : Option Align
  lines : List (List Document.Node)

namespace Cell

def node (type : String) (cell : Cell) : Document.Node :=
  .typed type [("align", Json.nullable (fun align => .string (Align.name align)) cell.align)]
    (cell.lines.map (.plain "paragraph"))

/-- A cell holds one empty paragraph, or paragraphs that are not empty. -/
structure Canonical (cell : Cell) : Prop where
  filled : cell.lines = [[]] ∨ cell.lines ≠ [] ∧ ∀ line ∈ cell.lines, line ≠ []
  line : ∀ line ∈ cell.lines, CanonicalLine line
  unbroken : ∀ line ∈ cell.lines, Unbroken line

end Cell

def rowOf (type : String) (cells : List Cell) : Document.Node :=
  .plain "tableRow" (cells.map (Cell.node type))

def itemOf : Option Bool → List Document.Node → Document.Node
  | none, content => .plain "listItem" content
  | some checked, content => .typed "taskItem" [("checked", .bool checked)] content

/-! Blocks. -/

inductive Place where
  | block | item

/-- The canonical blocks, and the canonical items of lists. -/
inductive Canonical : Place → Document.Node → Prop
  | paragraph {line : List Document.Node} (filled : line ≠ []) (inline : CanonicalLine line) :
      Canonical .block (.plain "paragraph" line)
  | heading {level : Nat} {line : List Document.Node} (bounded : 1 ≤ level ∧ level ≤ 6)
      (inline : CanonicalLine line) (unbroken : Unbroken line) (merged : Merged line) :
      Canonical .block (.typed "heading" [("level", .int level)] line)
  | blockquote {blocks : List Document.Node} (inside : ∀ block ∈ blocks, Canonical .block block) :
      Canonical .block (.plain "blockquote" blocks)
  | callout (kind : CalloutKind) {blocks : List Document.Node}
      (inside : ∀ block ∈ blocks, Canonical .block block) :
      Canonical .block (.typed "callout" [("kind", .string kind.name)] blocks)
  | codeBlock {language : Option String} {content : List Document.Node}
      (given : language ≠ some "")
      (whole : content = [] ∨ ∃ value, value ≠ "" ∧ content = [.ofText value []]) :
      Canonical .block
        (.typed "codeBlock" [("language", Json.nullable .string language)] content)
  | horizontalRule : Canonical .block (.plain "horizontalRule" [])
  | bulletList {items : List Document.Node} (inside : ∀ item ∈ items, Canonical .item item)
      (untasked : ∀ item ∈ items, item.type = "listItem") :
      Canonical .block (.plain "bulletList" items)
  | orderedList (start : UInt32) {items : List Document.Node}
      (inside : ∀ item ∈ items, Canonical .item item) :
      Canonical .block (.typed "orderedList" [("start", .int start.toNat)] items)
  | taskList {items : List Document.Node} (filled : items ≠ [])
      (inside : ∀ item ∈ items, Canonical .item item)
      (tasks : ∀ item ∈ items, item.type = "taskItem") :
      Canonical .block (.plain "taskList" items)
  | emptyTable : Canonical .block (.plain "table" [])
  | table {header : List Cell} {rows : List (List Cell)}
      (headers : ∀ cell ∈ header, cell.Canonical)
      (cells : ∀ row ∈ rows, ∀ cell ∈ row, cell.Canonical)
      (aligned : ∀ row ∈ rows, ∀ (column : Nat) (cell : Cell), row[column]? = some cell →
        cell.align = header[column]?.bind Cell.align) :
      Canonical .block
        (.plain "table" (rowOf "tableHeader" header :: rows.map (rowOf "tableCell")))
  | item (checked : Option Bool) {blocks : List Document.Node} (filled : blocks ≠ [])
      (inside : ∀ block ∈ blocks, Canonical .block block) :
      Canonical .item (itemOf checked blocks)
  | emptyItem (checked : Option Bool) :
      Canonical .item (itemOf checked [.plain "paragraph" []])

def CanonicalDocument (document : Document.Node) : Prop :=
  ∃ blocks, document = .plain "doc" blocks ∧ ∀ block ∈ blocks, Canonical .block block

end EditorMarkdown.Conversion
