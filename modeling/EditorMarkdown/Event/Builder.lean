import EditorMarkdown.Event.Basic
import EditorMarkdown.Markdown.Node
import EditorMarkdown.Text.Blank
import EditorMarkdown.Text.Lines

/-!
The builder folds events into a markdown tree. It keeps the constructs that are open, innermost
first; leaving one turns it into a node of the construct around it. The builder takes any run of
events: what is never left is closed at the end, and there is nothing to leave at the root.
-/

namespace EditorMarkdown

open Markdown (Node Align pushMerging wrapInline)

/-- A construct that is open, with what it has collected beside its children. -/
inductive Frame where
  | paragraph
  | heading (depth : UInt8)
  | quote
  | list (start : Option Nat)
  | item (checked : Option Bool) (loose : Bool)
  | code (lang detail : Option String) (value : String)
  | table (align : List (Option Align))
  | row
  | cell
  | emphasis
  | strong
  | delete
  | link (url : String) (title : Option String)
  | image (url : String) (title : Option String)
  | yaml (value : String)
  | html (value : String)
  | transparent
  deriving DecidableEq, Repr, Inhabited

/-- An open construct and its children so far, the last one first. -/
structure Open where
  frame : Frame
  children : List Node
  deriving Repr, Inhabited

/-- The open constructs, innermost first, and the children of the root, the last one first. -/
structure Builder where
  stack : List Open
  root : List Node
  deriving Repr, Inhabited

namespace Builder

def empty : Builder := ⟨[], []⟩

def nonEmpty (value : String) : Option String :=
  if value = "" then none else some value

/-- The first word of an info string and the rest of it. -/
def splitInfo (info : String) : Option String × Option String :=
  let trimmed := Text.trimWhile Text.isWhite info.toList
  let word := trimmed.takeWhile fun c => !Text.isWhite c
  let rest := Text.trimWhile Text.isWhite (trimmed.drop word.length)
  (nonEmpty (String.ofList word), nonEmpty (String.ofList rest))

def isBreakTag (html : String) : Bool :=
  let tag := (Text.trimWhile Text.isWhite html.toList).map Char.toLower
  tag = "<br>".toList || tag = "<br/>".toList || tag = "<br />".toList

def push (node : Node) (builder : Builder) : Builder :=
  match builder.stack with
  | [] => { builder with root := pushMerging node builder.root }
  | top :: rest =>
      { builder with stack := { top with children := pushMerging node top.children } :: rest }

def pushAll (nodes : List Node) (builder : Builder) : Builder :=
  nodes.foldl (fun builder node => builder.push node) builder

def frameOf : Tag → Frame
  | .paragraph => .paragraph
  | .heading depth => .heading depth
  | .quote => .quote
  | .list start => .list start
  | .item => .item none false
  | .code none => .code none none ""
  | .code (some info) => .code (splitInfo info).1 (splitInfo info).2 ""
  | .html => .html ""
  | .metadata => .yaml ""
  | .table align => .table align
  | .head => .row
  | .row => .row
  | .cell => .cell
  | .emphasis => .emphasis
  | .strong => .strong
  | .strike => .delete
  | .link url title => .link url (nonEmpty title)
  | .image url title => .image url (nonEmpty title)
  | .other => .transparent

def Open.markLoose (top : Open) : Open :=
  match top.frame with
  | .item checked _ => { top with frame := .item checked true }
  | _ => top

def enter (tag : Tag) (builder : Builder) : Builder :=
  let stack :=
    match tag, builder.stack with
    | .paragraph, top :: rest => Open.markLoose top :: rest
    | _, stack => stack
  { builder with stack := ⟨frameOf tag, []⟩ :: stack }

mutual
def plainText : Node → String
  | .text value | .inlineCode value => value
  | .image _ _ alt => alt
  | .root children | .heading _ children | .paragraph children | .blockquote children
  | .callout _ children | .list _ _ _ children | .listItem _ _ children | .table _ children
  | .tableRow children | .tableCell children | .emphasis children | .strong children
  | .delete children | .link _ _ children => plainTexts children
  | _ => ""

def plainTexts : List Node → String
  | [] => ""
  | node :: rest => plainText node ++ plainTexts rest
end

def stripNewline (value : String) : String :=
  String.ofList (Text.dropFinalNewline value.toList)

def isSpreadItem : Node → Bool
  | .listItem spread _ _ => spread
  | _ => false

/-- The nodes that a closed construct leaves behind, given its children in order. -/
def closed (children : List Node) : Frame → List Node
  | .paragraph => [.paragraph children]
  | .heading depth => [.heading depth children]
  | .quote => [.blockquote children]
  | .list start =>
      [.list start.isSome (start.map fun n => UInt32.ofNat (min n 4294967295))
        (children.any isSpreadItem) children]
  | .item checked loose => [.listItem loose checked (wrapInline children)]
  | .code lang detail value => [.code lang detail (stripNewline value)]
  | .table align => [.table align children]
  | .row => [.tableRow children]
  | .cell => [.tableCell children]
  | .emphasis => [.emphasis children]
  | .strong => [.strong children]
  | .delete => [.delete children]
  | .link url title => [.link url title children]
  | .image url title => [.image url title (plainTexts children)]
  | .yaml value => [.yaml (stripNewline value)]
  | .html value => [.html (stripNewline value)]
  | .transparent => children

def leave (builder : Builder) : Builder :=
  match builder.stack with
  | [] => builder
  | top :: rest => { builder with stack := rest }.pushAll (closed top.children.reverse top.frame)

/-- Adds literal text: code, metadata and HTML blocks collect it as their value. -/
def text (value : String) (builder : Builder) : Builder :=
  match builder.stack with
  | ⟨.code lang detail collected, children⟩ :: rest =>
      { builder with stack := ⟨.code lang detail (collected ++ value), children⟩ :: rest }
  | ⟨.yaml collected, children⟩ :: rest =>
      { builder with stack := ⟨.yaml (collected ++ value), children⟩ :: rest }
  | ⟨.html collected, children⟩ :: rest =>
      { builder with stack := ⟨.html (collected ++ value), children⟩ :: rest }
  | _ => builder.push (.text value)

def html (value : String) (builder : Builder) : Builder :=
  match builder.stack with
  | ⟨.html collected, children⟩ :: rest =>
      { builder with stack := ⟨.html (collected ++ value), children⟩ :: rest }
  | _ => builder.push (.html (String.ofList (Text.trimEndWhile (· = '\n') value.toList)))

/-- Sets the task state of the innermost item of a stack. -/
def checkItem (checked : Bool) : List Open → List Open
  | [] => []
  | ⟨.item _ loose, children⟩ :: rest => ⟨.item (some checked) loose, children⟩ :: rest
  | top :: rest => top :: checkItem checked rest

def leaf (leaf : Leaf) (builder : Builder) : Builder :=
  match leaf with
  | .text value => builder.text value
  | .code value => builder.push (.inlineCode value)
  | .html value => builder.html value
  | .inlineHtml value =>
      if isBreakTag value then builder.push .lineBreak else builder.push (.html value)
  | .softBreak => builder.text "\n"
  | .hardBreak => builder.push .lineBreak
  | .rule => builder.push .thematicBreak
  | .task checked => { builder with stack := checkItem checked builder.stack }
  | .other => builder

def step (builder : Builder) : Event → Builder
  | .enter tag => builder.enter tag
  | .leave => builder.leave
  | .leaf leaf => builder.leaf leaf

def leaveAll : Nat → Builder → Builder
  | 0, builder => builder
  | count + 1, builder => leaveAll count builder.leave

def finish (builder : Builder) : List Node :=
  (leaveAll builder.stack.length builder).root.reverse

end Builder

/-- The markdown tree, given by the children of its root, that events describe. -/
def Event.fold (events : List Event) : List Node :=
  (events.foldl Builder.step .empty).finish

end EditorMarkdown
