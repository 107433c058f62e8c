/-!
The kinds of markdown nodes and the small enumerations that nodes carry, each with its name.
-/

namespace EditorMarkdown.Markdown

inductive Kind where
  | root | heading | paragraph | thematicBreak | blockquote | callout | list | listItem | code
  | table | tableRow | tableCell | html | yaml | text | emphasis | strong | delete | inlineCode
  | lineBreak | link | image
  deriving DecidableEq, Repr

def Kind.name : Kind → String
  | .root => "root"
  | .heading => "heading"
  | .paragraph => "paragraph"
  | .thematicBreak => "thematicBreak"
  | .blockquote => "blockquote"
  | .callout => "callout"
  | .list => "list"
  | .listItem => "listItem"
  | .code => "code"
  | .table => "table"
  | .tableRow => "tableRow"
  | .tableCell => "tableCell"
  | .html => "html"
  | .yaml => "yaml"
  | .text => "text"
  | .emphasis => "emphasis"
  | .strong => "strong"
  | .delete => "delete"
  | .inlineCode => "inlineCode"
  | .lineBreak => "break"
  | .link => "link"
  | .image => "image"

def Kind.all : List Kind :=
  [.root, .heading, .paragraph, .thematicBreak, .blockquote, .callout, .list, .listItem, .code,
    .table, .tableRow, .tableCell, .html, .yaml, .text, .emphasis, .strong, .delete, .inlineCode,
    .lineBreak, .link, .image]

def Kind.ofName? (name : String) : Option Kind :=
  Kind.all.find? fun kind => kind.name = name

@[simp] theorem Kind.ofName?_name (kind : Kind) : Kind.ofName? kind.name = some kind := by
  cases kind <;> decide

inductive Align where
  | left | center | right
  deriving DecidableEq, Repr

def Align.name : Align → String
  | .left => "left"
  | .center => "center"
  | .right => "right"

def Align.ofName? : String → Option Align
  | "left" => some .left
  | "center" => some .center
  | "right" => some .right
  | _ => none

@[simp] theorem Align.ofName?_name (align : Align) : Align.ofName? align.name = some align := by
  cases align <;> rfl

inductive CalloutKind where
  | warning | info
  deriving DecidableEq, Repr

def CalloutKind.name : CalloutKind → String
  | .warning => "warning"
  | .info => "info"

def CalloutKind.marker : CalloutKind → String
  | .warning => "[!WARNING]"
  | .info => "[!NOTE]"

def CalloutKind.ofName? : String → Option CalloutKind
  | "warning" => some .warning
  | "info" => some .info
  | _ => none

@[simp] theorem CalloutKind.ofName?_name (kind : CalloutKind) :
    CalloutKind.ofName? kind.name = some kind := by
  cases kind <;> rfl

end EditorMarkdown.Markdown
