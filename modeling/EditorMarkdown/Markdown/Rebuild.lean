import EditorMarkdown.Markdown.Node

/-!
Rebuilding a markdown tree from its leaves up: every list of children changes after the nodes in it,
and every node after its children.
-/

namespace EditorMarkdown.Markdown

mutual
/-- A tree changed by `node` at each node and by `list` at each list of children. -/
def Node.rebuild (node : Node → Node) (list : List Node → List Node) : Node → Node
  | .root children => node (.root (list (rebuildEach node list children)))
  | .heading depth children => node (.heading depth (list (rebuildEach node list children)))
  | .paragraph children => node (.paragraph (list (rebuildEach node list children)))
  | .thematicBreak => node .thematicBreak
  | .blockquote children => node (.blockquote (list (rebuildEach node list children)))
  | .callout kind children => node (.callout kind (list (rebuildEach node list children)))
  | .list ordered start spread children =>
      node (.list ordered start spread (list (rebuildEach node list children)))
  | .listItem spread checked children =>
      node (.listItem spread checked (list (rebuildEach node list children)))
  | .code lang detail value => node (.code lang detail value)
  | .table align children => node (.table align (list (rebuildEach node list children)))
  | .tableRow children => node (.tableRow (list (rebuildEach node list children)))
  | .tableCell children => node (.tableCell (list (rebuildEach node list children)))
  | .html value => node (.html value)
  | .yaml value => node (.yaml value)
  | .text value => node (.text value)
  | .emphasis children => node (.emphasis (list (rebuildEach node list children)))
  | .strong children => node (.strong (list (rebuildEach node list children)))
  | .delete children => node (.delete (list (rebuildEach node list children)))
  | .inlineCode value => node (.inlineCode value)
  | .lineBreak => node .lineBreak
  | .link url title children => node (.link url title (list (rebuildEach node list children)))
  | .image url title alt => node (.image url title alt)

def rebuildEach (node : Node → Node) (list : List Node → List Node) : List Node → List Node
  | [] => []
  | next :: rest => next.rebuild node list :: rebuildEach node list rest
end

def rebuildAll (node : Node → Node) (list : List Node → List Node) (nodes : List Node) :
    List Node :=
  list (nodes.map (Node.rebuild node list))

theorem rebuildEach_eq_map (node : Node → Node) (list : List Node → List Node)
    (nodes : List Node) : rebuildEach node list nodes = nodes.map (Node.rebuild node list) := by
  induction nodes with
  | nil => rfl
  | cons next rest ih => simp [rebuildEach, ih]

theorem Node.rebuild_eq (node : Node → Node) (list : List Node → List Node) (tree : Node)
    (h : tree.isContainer) :
    tree.rebuild node list =
      node (tree.withChildren (list (tree.children.map (Node.rebuild node list)))) := by
  cases tree <;>
    simp_all [rebuild, rebuildEach_eq_map, withChildren, children, isContainer]

theorem Node.rebuild_of_not_isContainer (node : Node → Node) (list : List Node → List Node)
    {tree : Node} (h : tree.isContainer = false) : tree.rebuild node list = node tree := by
  cases tree <;> simp_all [rebuild, isContainer]

end EditorMarkdown.Markdown
