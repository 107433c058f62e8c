import EditorMarkdown.Document.Schema

/-!
Operations on document nodes that stand in a line.
-/

namespace EditorMarkdown.Document

/-- Adds a node after the nodes of a reversed list; a text after a text with the same marks
continues it. -/
def pushText (node : Node) : List Node → List Node
  | [] => [node]
  | previous :: rest =>
      match previous.text, node.text with
      | some text, some more =>
          if sameMarks previous.marks node.marks then
            { previous with text := some (text ++ more) } :: rest
          else node :: previous :: rest
      | _, _ => node :: previous :: rest

def mergeTexts (nodes : List Node) : List Node :=
  (nodes.foldl (fun done node => pushText node done) []).reverse

namespace Schema

def markInline (mark : Mark) (nodes : List Node) (schema : Schema) : List Node :=
  nodes.map fun node =>
    if schema.isInline node then { node with marks := schema.addMark mark node.marks } else node

/-- Wraps each run of nodes that stand in a line in a paragraph and keeps the other nodes; `run`
holds the run that is open, reversed. -/
def wrapRun (schema : Schema) (run : List Node) :
    List Node → Except UnknownType (List Node)
  | [] => if run.isEmpty then .ok [] else do return [← schema.node "paragraph" .empty run.reverse]
  | node :: rest =>
      if schema.isInline node then wrapRun schema (node :: run) rest
      else if run.isEmpty then do return node :: (← wrapRun schema [] rest)
      else do
        let paragraph ← schema.node "paragraph" .empty run.reverse
        return paragraph :: node :: (← wrapRun schema [] rest)

def wrapInline (nodes : List Node) (schema : Schema) : Except UnknownType (List Node) :=
  wrapRun schema [] nodes

end Schema

end EditorMarkdown.Document
