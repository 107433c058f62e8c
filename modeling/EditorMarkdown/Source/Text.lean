import EditorMarkdown.Event.Builder
import EditorMarkdown.Source.Inline
import EditorMarkdown.Source.Structure

/-!
From a source text to its event trees, its events and its markdown tree. What references may expand
to is bounded for the whole text, so the blocks pass on what is left of it.
-/

namespace EditorMarkdown.Source

def cellTrees (surroundings : Surroundings) : Nat → List Content → List Tree × Nat
  | allowance, [] => ([], allowance)
  | allowance, content :: rest =>
      let (children, allowance) := inlineTrees surroundings allowance content
      let (trees, allowance) := cellTrees surroundings allowance rest
      (.node .cell children :: trees, allowance)

def rowTrees (surroundings : Surroundings) : Nat → List (List Content) → List Tree × Nat
  | allowance, [] => ([], allowance)
  | allowance, cells :: rest =>
      let (children, allowance) := cellTrees surroundings allowance cells
      let (trees, allowance) := rowTrees surroundings allowance rest
      (.node .row children :: trees, allowance)

mutual
/-- The trees of a block. The paragraphs directly in an item of a tight list have no tag. -/
def Block.trees (surroundings : Surroundings) (tight : Bool) (allowance : Nat) :
    Block → List Tree × Nat
  | .paragraph content =>
      let (children, allowance) := inlineTrees surroundings allowance content
      (if tight then children else [.node .paragraph children], allowance)
  | .heading depth content =>
      let (children, allowance) := inlineTrees surroundings allowance content
      ([.node (.heading (UInt8.ofNat depth)) children], allowance)
  | .rule => ([.leaf .rule], allowance)
  | .code info lines => ([.node (.code (info.map String.ofList)) (lines.map Tree.text)], allowance)
  | .html lines =>
      ([.node .html (lines.map fun line => .leaf (.html (String.ofList line)))], allowance)
  | .metadata lines => ([.node .metadata (lines.map Tree.text)], allowance)
  | .table align head rows =>
      let surroundings := { surroundings with inTable := true }
      let (head, allowance) := cellTrees surroundings allowance head
      let (rows, allowance) := rowTrees surroundings allowance rows
      ([.node (.table align) (.node .head head :: rows)], allowance)
  | .quote blocks =>
      let inner := { surroundings with containers := surroundings.containers ++ [.quote] }
      let (children, allowance) := Block.treesAll inner false allowance blocks
      ([.node .quote children], allowance)
  | .list tight start items =>
      let (children, allowance) := Block.treesAll surroundings tight allowance items
      ([.node (.list start) children], allowance)
  | .item indent blocks =>
      let inner := { surroundings with containers := surroundings.containers ++ [.item indent] }
      let (children, allowance) := Block.treesAll inner tight allowance blocks
      ([.node .item children], allowance)
  | .task checked => ([.leaf (.task checked)], allowance)

def Block.treesAll (surroundings : Surroundings) (tight : Bool) (allowance : Nat) :
    List Block → List Tree × Nat
  | [] => ([], allowance)
  | block :: rest =>
      let (trees, allowance) := block.trees surroundings tight allowance
      let (others, allowance) := Block.treesAll surroundings tight allowance rest
      (trees ++ others, allowance)
end

end EditorMarkdown.Source

namespace EditorMarkdown

/-- The event trees of a text. References expand to as many bytes as the text has, and to a hundred
thousand at least. -/
def Tree.ofText (text : List Char) : List Tree :=
  let (blocks, definitions) := Source.blocks text
  let allowance := max (String.ofList text).utf8ByteSize 100000
  (Source.Block.treesAll ⟨[], false, definitions⟩ false allowance blocks).1

def Event.ofText (text : List Char) : List Event := Tree.flattenAll (Tree.ofText text)

def Markdown.Node.ofText (text : String) : List Markdown.Node :=
  Event.fold (Event.ofText text.toList)

end EditorMarkdown
