import EditorMarkdown.Markdown.Node

/-!
Front matter: the metadata block among the children of a root.
-/

namespace EditorMarkdown.Markdown

/-- The text of the first metadata block, empty if there is none, and the other nodes. -/
def takeFrontMatter : List Node → String × List Node
  | [] => ("", [])
  | .yaml value :: rest => (value, rest)
  | node :: rest =>
      let (value, others) := takeFrontMatter rest
      (value, node :: others)

end EditorMarkdown.Markdown
