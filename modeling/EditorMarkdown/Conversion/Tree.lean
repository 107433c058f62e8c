import EditorMarkdown.Conversion.Registry
import EditorMarkdown.Conversion.Run

/-!
The two walks between markdown and documents. Children are converted before their parent, and the
hook for the parent gets them; where there is no hook, the children take the place of the parent.
-/

namespace EditorMarkdown.Conversion

open Document (UnknownType)

namespace Registry

def applyFrom (registry : Registry) (context : Context) (node : Markdown.Node)
    (children : List Document.Node) : Except UnknownType (List Document.Node) :=
  match (registry.ofKind? node.kind.name).bind Entry.fromMarkdown with
  | some hook => hook node registry.schema children context
  | none => .ok children

def applyTo (registry : Registry) (subject : Subject) (children : List Markdown.Node) :
    List Markdown.Node :=
  match (registry.named? subject.type).bind Entry.toMarkdown with
  | some hook => hook subject children
  | none => children

mutual
def fromNode (registry : Registry) (context : Context) (index : Nat) (node : Markdown.Node) :
    Except UnknownType (List Document.Node) :=
  let inner := context.enter node index
  let children :=
    match node with
    | .root children | .heading _ children | .paragraph children | .blockquote children
    | .callout _ children | .list _ _ _ children | .listItem _ _ children
    | .table _ children | .tableRow children | .tableCell children | .emphasis children
    | .strong children | .delete children | .link _ _ children =>
        fromNodes registry inner 0 children
    | .thematicBreak | .code _ _ _ | .html _ | .yaml _ | .text _ | .inlineCode _ | .lineBreak
    | .image _ _ _ => .ok []
  children.bind (registry.applyFrom inner node)

def fromNodes (registry : Registry) (context : Context) (index : Nat) :
    List Markdown.Node → Except UnknownType (List Document.Node)
  | [] => .ok []
  | node :: rest =>
      match fromNode registry context index node with
      | .error unknown => .error unknown
      | .ok nodes =>
          match fromNodes registry context (index + 1) rest with
          | .error unknown => .error unknown
          | .ok others => .ok (nodes ++ others)
end

theorem fromNode_eq (registry : Registry) (context : Context) (index : Nat)
    (node : Markdown.Node) :
    registry.fromNode context index node =
      (registry.fromNodes (context.enter node index) 0 node.children).bind
        (registry.applyFrom (context.enter node index) node) := by
  cases node <;> rfl

def toDocument (registry : Registry) (children : List Markdown.Node) :
    Except UnknownType Document.Node :=
  match registry.fromNode .top 0 (.root children) with
  | .error unknown => .error unknown
  | .ok [node] =>
      if node.type = "doc" then .ok node else registry.schema.node "doc" .empty [node]
  | .ok nodes => registry.schema.node "doc" .empty nodes

def applyMark (registry : Registry) (mark : Document.Mark) (nodes : List Markdown.Node) :
    List Markdown.Node :=
  registry.applyTo (.mark mark) nodes

mutual
/-- The markdown of a document node, its own marks apart. -/
def toNodes (registry : Registry) : Document.Node → List Markdown.Node
  | ⟨type, attrs, content, marks, text⟩ =>
      registry.applyTo (.node ⟨type, attrs, content, marks, text⟩)
        (markedRun registry.applyMark (toPieces registry content))

/-- Siblings as markdown, with their marks in the order of their ranks. -/
def toPieces (registry : Registry) : List Document.Node → List Piece
  | [] => []
  | node :: rest =>
      ⟨registry.schema.orderMarks node.marks, toNodes registry node⟩ :: toPieces registry rest
end

def contentToMarkdown (registry : Registry) (content : List Document.Node) :
    List Markdown.Node :=
  markedRun registry.applyMark (registry.toPieces content)

theorem toNodes_eq (registry : Registry) (node : Document.Node) :
    registry.toNodes node =
      registry.applyTo (.node node) (registry.contentToMarkdown node.content) := by
  cases node
  rfl

theorem toPieces_eq (registry : Registry) (content : List Document.Node) :
    registry.toPieces content =
      content.map fun node => ⟨registry.schema.orderMarks node.marks, registry.toNodes node⟩ := by
  induction content with
  | nil => rfl
  | cons node rest induction => rw [toPieces, induction, List.map_cons]

def spliceRoots (nodes : List Markdown.Node) : List Markdown.Node :=
  nodes.flatMap fun node =>
    match node with
    | .root children => children
    | other => [other]

def toMarkdown (registry : Registry) (document : Document.Node) : List Markdown.Node :=
  spliceRoots (registry.toNodes document)

end Registry

end EditorMarkdown.Conversion
