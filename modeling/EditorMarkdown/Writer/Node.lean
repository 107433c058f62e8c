import EditorMarkdown.Text.Lines
import EditorMarkdown.Writer.Buffer
import EditorMarkdown.Writer.Layout
import EditorMarkdown.Writer.Options

/-!
Writing a markdown tree. A node is written onto a buffer; the content of a quote, a list item or a
table cell is written onto a buffer of its own and then laid out.
-/

namespace EditorMarkdown.Writer

open Markdown (Kind Node)

def headingDepth (depth : UInt8) : Nat := min (max depth.toNat 1) 6

def Scope.isSingleLine (scope : Scope) : Bool := scope.within .tableCell || scope.within .heading

def Scope.breakText (scope : Scope) : List Char :=
  if scope.isSingleLine then [' '] else [' ', ' ', '\n']

/-- Whether a block is a list of the same flavour as the block before it. -/
def continuesList : Option Node → Node → Bool
  | some (.list previous _ _ _), .list ordered _ _ _ => previous = ordered
  | _, _ => false

/-- What separates a block from the block before it. In a tight container a list follows on the
next line. -/
def separator (tight : Bool) : Option Node → Node → List Char
  | none, _ => []
  | some _, .list _ _ _ _ => if tight then ['\n'] else ['\n', '\n']
  | some _, _ => ['\n', '\n']

def Options.marker (options : Options) (ordered alternate : Bool) (number : UInt32) : List Char :=
  if ordered then orderedMarker alternate number
  else [if alternate then options.bulletOther else options.bullet, ' ']

def Options.counts (options : Options) (ordered : Bool) : Bool := ordered && options.increment

/-- The number after the one of an item; behind the greatest number comes zero. -/
def Options.next (options : Options) (ordered : Bool) (number : UInt32) : UInt32 :=
  if options.counts ordered then number + 1 else number

/-- The text of a callout. A leading paragraph shares the line of the marker. -/
def calloutText (marker : String) (sharesLine : Bool) (body : List Char) : List Char :=
  quoteText
    (if sharesLine then marker.toList ++ body
    else if body.isEmpty then marker.toList
    else marker.toList ++ '\n' :: body)

def firstNumber (start : Option UInt32) : UInt32 := start.getD 1

def Options.handled? (options : Options) (scope : Scope) (node : Node) : Option (List Char) :=
  (options.handler? node.kind).bind fun handler => (handler node scope).map String.toList

def startsWithParagraph : List Node → Bool
  | .paragraph _ :: _ => true
  | _ => false

mutual
/-- Writes a node: as its handler says, or in the default form. A list that continues a list of
the same flavour is `alternate`: it has other markers, is not offered to a handler, and its items
do not count as standing in a list. -/
def writeNode (options : Options) (scope : Scope) (alternate : Bool) (node : Node)
    (buffer : Buffer) : Buffer :=
  match if alternate then none else options.handled? scope node with
  | some text => buffer.push text
  | none =>
      match node with
      | .root children => writeBlocks options (scope.enter .root) false none children buffer
      | .heading depth children =>
          let start := (buffer.push (List.replicate (headingDepth depth) '#' ++ [' '])).startLine
          let written := writeInlines options (scope.enter .heading) children start
          written.closeHeading start.text.length
      | .paragraph children => writeInlines options (scope.enter .paragraph) children buffer
      | .thematicBreak => buffer.push (List.replicate 3 options.rule)
      | .blockquote children =>
          let body := writeBlocks options (scope.enter .blockquote) false none children .empty
          buffer.push (quoteText body.text)
      | .callout kind children =>
          let sharesLine := startsWithParagraph children
          let body :=
            writeBlocks options (scope.enter .callout) false none children (.fresh !sharesLine)
          buffer.push (calloutText kind.marker sharesLine body.text)
      | .list ordered start spread children =>
          let scope := if alternate then scope else scope.enter .list
          writeItems options scope ordered alternate spread [] (firstNumber start) children
            buffer
      | .listItem spread checked children =>
          let scope := (scope.enter .listItem).enter .listItem
          let body := writeBlocks options scope (!spread) none children .empty
          buffer.push (itemText (options.marker false false 1) checked body.text)
      | .code lang detail value => buffer.push (codeBlock lang detail value)
      | .table align children =>
          buffer.push (tableText align (rowTexts options (scope.enter .table) children))
      | .tableRow children =>
          let cells := cellTexts options (scope.enter .tableRow) children
          buffer.push (tableLine cells.length cells)
      | .tableCell children => writeInlines options (scope.enter .tableCell) children buffer
      | .html value => buffer.push value.toList
      | .yaml value => buffer.push (metadataText value)
      | .text value =>
          buffer.pushLines (scope.within .tableCell) scope.isSingleLine
            (Text.splitLines value.toList)
      | .emphasis children =>
          let marker := [options.emphasis]
          (writeInlines options (scope.enter .emphasis) children (buffer.push marker)).push marker
      | .strong children =>
          let marker := [options.strong, options.strong]
          (writeInlines options (scope.enter .strong) children (buffer.push marker)).push marker
      | .delete children =>
          let marker := ['~', '~']
          (writeInlines options (scope.enter .delete) children (buffer.push marker)).push marker
      | .inlineCode value => buffer.pushCode (codeSpan (scope.within .tableCell) value)
      | .lineBreak => buffer.push scope.breakText
      | .link url title children =>
          let opened := buffer.escapeBang.push ['[']
          (writeInlines options (scope.enter .link) children opened).push (linkTail url title)
      | .image url title alt =>
          buffer.push (imageText (scope.within .tableCell) url title alt)

def writeInlines (options : Options) (scope : Scope) : List Node → Buffer → Buffer
  | [], buffer => buffer
  | node :: rest, buffer =>
      writeInlines options scope rest (writeNode options scope false node buffer)

/-- Writes blocks with blank lines between them. A list right after a list of the same flavour is
alternate, so that the two do not become one. -/
def writeBlocks (options : Options) (scope : Scope) (tight : Bool) (previous : Option Node) :
    List Node → Buffer → Buffer
  | [], buffer => buffer
  | node :: rest, buffer =>
      writeBlocks options scope tight (some node) rest
        (writeNode options scope (continuesList previous node) node
          (buffer.push (separator tight previous node)))

def writeItems (options : Options) (scope : Scope) (ordered alternate spread : Bool)
    (before : List Char) (number : UInt32) : List Node → Buffer → Buffer
  | [], buffer => buffer
  | .listItem itemSpread checked children :: rest, buffer =>
      let body :=
        writeBlocks options (scope.enter .listItem) (!spread && !itemSpread) none children .empty
      let item := itemText (options.marker ordered alternate number) checked body.text
      writeItems options scope ordered alternate spread
        (if spread then ['\n', '\n'] else ['\n']) (options.next ordered number) rest
        ((buffer.push before).push item)
  | _ :: rest, buffer =>
      writeItems options scope ordered alternate spread before number rest buffer

def rowTexts (options : Options) (scope : Scope) : List Node → List (List (List Char))
  | [] => []
  | .tableRow cells :: rest =>
      cellTexts options (scope.enter .tableRow) cells :: rowTexts options scope rest
  | _ :: rest => rowTexts options scope rest

def cellTexts (options : Options) (scope : Scope) : List Node → List (List Char)
  | [] => []
  | node :: rest =>
      if node.kind = .tableCell then
        (writeNode options scope false node .empty).text :: cellTexts options scope rest
      else cellTexts options scope rest
end

/-- A text with a newline at its end, unless it is empty. -/
def finishLine (text : List Char) : List Char :=
  match text.getLast? with
  | none => []
  | some c => if c = '\n' then text else text ++ ['\n']

def rootText (options : Options) (children : List Node) : List Char :=
  let front := (options.frontMatter.map frontMatterText).getD []
  finishLine (writeBlocks options ⟨[.root]⟩ false none children (Buffer.empty.push front)).text

end EditorMarkdown.Writer

namespace EditorMarkdown.Markdown

def toText (options : Writer.Options) (children : List Node) : String :=
  String.ofList (Writer.rootText options children)

def toDocumentText (frontMatter : Option String) (children : List Node) : String :=
  toText (Writer.Options.forDocument frontMatter) children

end EditorMarkdown.Markdown
