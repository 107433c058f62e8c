import EditorMarkdown.Markdown.Rebuild
import EditorMarkdown.Text.Lines

/-!
Callouts in markdown: a quote whose first paragraph has a marker in its first text. The marker is
taken out of that text wherever it occurs, and the quote becomes a callout.
-/

namespace EditorMarkdown.Markdown

/-- The kinds of callouts in the order in which their markers are looked for. -/
def CalloutKind.inOrder : List CalloutKind := [.warning, .info]

def CalloutKind.announced? (text : String) : Option CalloutKind :=
  CalloutKind.inOrder.find? fun kind => Text.containsPart kind.marker.toList text.toList

def CalloutKind.unmark (kind : CalloutKind) (text : String) : String :=
  String.ofList (Text.replacePart kind.marker.toList [] text.toList)

/-- The kind of callout announced by the first text among some nodes, and the nodes with that text
unmarked. -/
def unmarkText? : List Node → Option (CalloutKind × List Node)
  | [] => none
  | .text value :: rest =>
      (CalloutKind.announced? value).map fun kind => (kind, .text (kind.unmark value) :: rest)
  | node :: rest => (unmarkText? rest).map fun (kind, nodes) => (kind, node :: nodes)

def unmarkParagraph? : List Node → Option (CalloutKind × List Node)
  | [] => none
  | .paragraph children :: rest =>
      (unmarkText? children).map fun (kind, nodes) => (kind, .paragraph nodes :: rest)
  | node :: rest => (unmarkParagraph? rest).map fun (kind, nodes) => (kind, node :: nodes)

/-- A quote that announces a callout as that callout; any other node as it is. -/
def Node.announce : Node → Node
  | .blockquote children =>
      match unmarkParagraph? children with
      | some (kind, nodes) => .callout kind nodes
      | none => .blockquote children
  | node => node

/-- A tree in which every quote that announces a callout is that callout. What a quote announces
does not depend on the callouts inside it, because they are neither paragraphs nor texts. -/
def Node.markCallouts (node : Node) : Node := node.rebuild Node.announce id

def markCallouts (nodes : List Node) : List Node := nodes.map Node.markCallouts

end EditorMarkdown.Markdown
