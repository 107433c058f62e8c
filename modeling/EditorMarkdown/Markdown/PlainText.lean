import EditorMarkdown.Markdown.Rebuild

/-!
The text of markdown nodes without their markup.
-/

namespace EditorMarkdown.Markdown

mutual
/-- The texts and the inline code in a node, and a newline for each break. -/
def Node.plainText : Node → String
  | .text value | .inlineCode value => value
  | .lineBreak => "\n"
  | .root children | .heading _ children | .paragraph children | .blockquote children
  | .callout _ children | .list _ _ _ children | .listItem _ _ children | .table _ children
  | .tableRow children | .tableCell children | .emphasis children | .strong children
  | .delete children | .link _ _ children => plainTexts children
  | .thematicBreak | .code _ _ _ | .html _ | .yaml _ | .image _ _ _ => ""

def plainTexts : List Node → String
  | [] => ""
  | node :: rest => node.plainText ++ plainTexts rest
end

@[simp] theorem plainTexts_text (value : String) : plainTexts [.text value] = value :=
  String.append_empty

theorem plainTexts_append (nodes more : List Node) :
    plainTexts (nodes ++ more) = plainTexts nodes ++ plainTexts more := by
  induction nodes with
  | nil => exact (String.empty_append).symm
  | cons node rest induction =>
      rw [List.cons_append, plainTexts, plainTexts, induction, String.append_assoc]

def Node.breakToSpace : Node → Node
  | .lineBreak => .text " "
  | node => node

/-- Nodes with their breaks, at any depth, as spaces, and with neighbouring texts merged. -/
def foldBreaks (nodes : List Node) : List Node := rebuildAll Node.breakToSpace mergeTexts nodes

end EditorMarkdown.Markdown
