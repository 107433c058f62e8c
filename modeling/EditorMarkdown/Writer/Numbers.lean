import EditorMarkdown.Sums
import EditorMarkdown.Writer.Node

/-!
Runs of the writer in which the number behind an item may not fit. The number is formed behind the
last item too, where no item takes it.
-/

namespace EditorMarkdown.Writer

open Markdown (Node)

def greatestNumber : UInt32 := 4294967295

mutual
/-- Whether a sum does not fit while a node is written, as `writeNode` goes through it. -/
def nodeOverflows (options : Options) (scope : Scope) (alternate : Bool) (node : Node) : Bool :=
  match if alternate then none else options.handled? scope node with
  | some _ => false
  | none =>
      match node with
      | .root children => blocksOverflow options (scope.enter .root) none children
      | .heading _ children => inlinesOverflow options (scope.enter .heading) children
      | .paragraph children => inlinesOverflow options (scope.enter .paragraph) children
      | .blockquote children => blocksOverflow options (scope.enter .blockquote) none children
      | .callout _ children => blocksOverflow options (scope.enter .callout) none children
      | .list ordered start _ children =>
          let scope := if alternate then scope else scope.enter .list
          itemsOverflow options scope ordered (firstNumber start) children
      | .listItem _ _ children =>
          blocksOverflow options ((scope.enter .listItem).enter .listItem) none children
      | .table _ children => rowsOverflow options (scope.enter .table) children
      | .tableRow children => cellsOverflow options (scope.enter .tableRow) children
      | .tableCell children => inlinesOverflow options (scope.enter .tableCell) children
      | .emphasis children => inlinesOverflow options (scope.enter .emphasis) children
      | .strong children => inlinesOverflow options (scope.enter .strong) children
      | .delete children => inlinesOverflow options (scope.enter .delete) children
      | .link _ _ children => inlinesOverflow options (scope.enter .link) children
      | .thematicBreak | .code _ _ _ | .html _ | .yaml _ | .text _ | .inlineCode _ | .lineBreak
      | .image _ _ _ => false

def inlinesOverflow (options : Options) (scope : Scope) : List Node → Bool
  | [] => false
  | node :: rest =>
      nodeOverflows options scope false node || inlinesOverflow options scope rest

def blocksOverflow (options : Options) (scope : Scope) (previous : Option Node) :
    List Node → Bool
  | [] => false
  | node :: rest =>
      nodeOverflows options scope (continuesList previous node) node ||
        blocksOverflow options scope (some node) rest

def itemsOverflow (options : Options) (scope : Scope) (ordered : Bool) (number : UInt32) :
    List Node → Bool
  | [] => false
  | .listItem _ _ children :: rest =>
      (options.counts ordered && number = greatestNumber) ||
        (blocksOverflow options (scope.enter .listItem) none children ||
          itemsOverflow options scope ordered (options.next ordered number) rest)
  | _ :: rest => itemsOverflow options scope ordered number rest

def rowsOverflow (options : Options) (scope : Scope) : List Node → Bool
  | [] => false
  | .tableRow cells :: rest =>
      cellsOverflow options (scope.enter .tableRow) cells || rowsOverflow options scope rest
  | _ :: rest => rowsOverflow options scope rest

def cellsOverflow (options : Options) (scope : Scope) : List Node → Bool
  | [] => false
  | node :: rest =>
      (node.kind = .tableCell && nodeOverflows options scope false node) ||
        cellsOverflow options scope rest
end

/-- A run that writes blocks behind what a buffer holds. -/
def runBlocks (sums : Sums) (options : Options) (scope : Scope) (tight : Bool)
    (previous : Option Node) (blocks : List Node) (buffer : Buffer) : Except Fault Buffer :=
  sums.guard (blocksOverflow options scope previous blocks)
    (writeBlocks options scope tight previous blocks buffer)

end EditorMarkdown.Writer

namespace EditorMarkdown.Markdown

/-- A run that writes a root. The text is `toText` of the root if there is one. -/
def write (sums : Sums) (options : Writer.Options) (children : List Node) :
    Except Fault String :=
  let front := (options.frontMatter.map Writer.frontMatterText).getD []
  (Writer.runBlocks sums options ⟨[.root]⟩ false none children (Writer.Buffer.empty.push front)).map
    fun written => String.ofList (Writer.finishLine written.text)

/-- A run that writes a root as documents are written, with front matter. -/
def writeDocument (sums : Sums) (frontMatter : Option String) (children : List Node) :
    Except Fault String :=
  write sums (Writer.Options.forDocument frontMatter) children

theorem write_eq (sums : Sums) (options : Writer.Options) (children : List Node) :
    write sums options children =
      sums.guard (Writer.blocksOverflow options ⟨[.root]⟩ none children)
        (toText options children) := by
  rw [write, Writer.runBlocks, Sums.map_guard]
  rfl

theorem writeDocument_eq (sums : Sums) (frontMatter : Option String) (children : List Node) :
    writeDocument sums frontMatter children =
      sums.guard
        (Writer.blocksOverflow (Writer.Options.forDocument frontMatter) ⟨[.root]⟩ none children)
        (toDocumentText frontMatter children) := by
  rw [writeDocument, write_eq]
  rfl

end EditorMarkdown.Markdown
