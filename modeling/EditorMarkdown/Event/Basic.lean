import EditorMarkdown.Markdown.Kind

/-!
Events in which a markdown text is read: tags are entered and left, and leaves stand between them.
`Tree` is the nested form of a balanced run of events, and `Tree.flatten` lists its events.
-/

namespace EditorMarkdown

open Markdown (Align)

/-- A construct that encloses others. `other` stands for a construct without a node of its own. -/
inductive Tag where
  | paragraph
  | heading (depth : UInt8)
  | quote
  | list (start : Option Nat)
  | item
  | code (info : Option String)
  | html
  | metadata
  | table (align : List (Option Align))
  | head
  | row
  | cell
  | emphasis
  | strong
  | strike
  | link (url title : String)
  | image (url title : String)
  | other
  deriving DecidableEq, Repr, Inhabited

inductive Leaf where
  | text (value : String)
  | code (value : String)
  | html (value : String)
  | inlineHtml (value : String)
  | softBreak
  | hardBreak
  | rule
  | task (checked : Bool)
  | other
  deriving DecidableEq, Repr, Inhabited

inductive Event where
  | enter (tag : Tag)
  | leave
  | leaf (leaf : Leaf)
  deriving DecidableEq, Repr, Inhabited

inductive Tree where
  | leaf (leaf : Leaf)
  | node (tag : Tag) (children : List Tree)
  deriving Repr, Inhabited

mutual
def Tree.flatten : Tree → List Event
  | .leaf content => [.leaf content]
  | .node tag children => .enter tag :: (Tree.flattenAll children ++ [.leave])

def Tree.flattenAll : List Tree → List Event
  | [] => []
  | tree :: rest => tree.flatten ++ Tree.flattenAll rest
end

@[simp] theorem Tree.flatten_leaf (content : Leaf) :
    (Tree.leaf content).flatten = [.leaf content] := rfl

@[simp] theorem Tree.flatten_node (tag : Tag) (children : List Tree) :
    (Tree.node tag children).flatten = .enter tag :: (flattenAll children ++ [.leave]) := rfl

@[simp] theorem Tree.flattenAll_nil : Tree.flattenAll [] = [] := rfl

@[simp] theorem Tree.flattenAll_cons (tree : Tree) (rest : List Tree) :
    Tree.flattenAll (tree :: rest) = tree.flatten ++ Tree.flattenAll rest := rfl

theorem Tree.flattenAll_append (first second : List Tree) :
    Tree.flattenAll (first ++ second) = Tree.flattenAll first ++ Tree.flattenAll second := by
  induction first with
  | nil => rfl
  | cons tree rest ih => simp [ih]

/-- A leaf that holds the characters of a text. -/
def Tree.text (value : List Char) : Tree := .leaf (.text (String.ofList value))

end EditorMarkdown
