import EditorMarkdown.Proofs.Conversion.Restored
import EditorMarkdown.Proofs.Conversion.Runs
import EditorMarkdown.Proofs.Conversion.Words
import EditorMarkdown.Proofs.Markdown.Values

/-!
The text of a document in its markdown. Every sibling is visited once and in order, whatever its
marks are: a mark encloses what it is applied to, and code puts its text together. Containers hold
the markdown of their content, nodes of types that are not registered leave it in their place, and a
cell puts its paragraphs in a line. So the values of the markdown are the text content of the
document, but for white space, unless a node that has no content in markdown has some with a text in
it.
-/

namespace EditorMarkdown.Conversion

open Document (Mark)
open Markdown (Codeless valuesOf visible)

variable {document node : Document.Node} {mark : Mark} {piece : Piece} {pieces : List Piece}
  {children nodes : List Markdown.Node}

/-! Marks. -/

def AppliesAsMark (mark : Mark) : Prop := mark.type ∈ markTypes ∨ isRegistered mark.type = false

instance : DecidablePred AppliesAsMark := fun _ => inferInstanceAs (Decidable (_ ∨ _))

structure IsOuter (outer : List Markdown.Node → Markdown.Node) : Prop where
  container : ∀ nodes, (outer nodes).isContainer
  children : ∀ nodes, (outer nodes).children = nodes
  inline : ∀ nodes, (outer nodes).isInline

/-- A mark encloses nodes, puts their text together, or leaves them as they are. -/
theorem applyMark_cases (asMark : AppliesAsMark mark) :
    (∃ outer, IsOuter outer ∧
        ∀ nodes, Registry.standard.applyMark mark nodes = enclose outer nodes) ∨
      (mark.type = "code" ∧ ∀ nodes, Registry.standard.applyMark mark nodes =
        if (Markdown.plainTexts nodes).isEmpty then []
        else [.inlineCode (Markdown.plainTexts nodes)]) ∨
      ∀ nodes, Registry.standard.applyMark mark nodes = nodes := by
  rcases asMark with declared | unknown
  · obtain ⟨type, attrs⟩ := mark
    simp only [markTypes, List.mem_cons, List.not_mem_nil, or_false] at declared
    rcases declared with rfl | rfl | rfl | rfl | rfl
    · exact .inl ⟨_, ⟨fun _ => rfl, fun _ => rfl, fun _ => rfl⟩, fun _ => rfl⟩
    · exact .inl ⟨.strong, ⟨fun _ => rfl, fun _ => rfl, fun _ => rfl⟩, fun _ => rfl⟩
    · exact .inl ⟨.emphasis, ⟨fun _ => rfl, fun _ => rfl, fun _ => rfl⟩, fun _ => rfl⟩
    · exact .inl ⟨.delete, ⟨fun _ => rfl, fun _ => rfl, fun _ => rfl⟩, fun _ => rfl⟩
    · exact .inr (.inl ⟨rfl, fun _ => rfl⟩)
  · exact .inr (.inr fun nodes => applyTo_of_not_registered (.mark mark) unknown nodes)

theorem valuesOf_enclose {outer : List Markdown.Node → Markdown.Node} (isOuter : IsOuter outer)
    (nodes : List Markdown.Node) : valuesOf (enclose outer nodes) = valuesOf nodes := by
  unfold enclose
  split
  · next empty => rw [List.isEmpty_iff.1 empty]
  · rw [Markdown.valuesOf_container (isOuter.container nodes), isOuter.children]

theorem visible_applyMark (asMark : AppliesAsMark mark)
    (codeless : mark.type = "code" → Codeless nodes) :
    visible (valuesOf (Registry.standard.applyMark mark nodes)) = visible (valuesOf nodes) := by
  rcases applyMark_cases asMark with ⟨outer, isOuter, applied⟩ | ⟨code, applied⟩ | applied
  · rw [applied, valuesOf_enclose isOuter]
  · rw [applied, ← Markdown.visible_plainTexts (codeless code)]
    split
    · next empty => simp [String.isEmpty_iff.1 empty]
    · simp [Markdown.valuesOf_cons, Markdown.Node.value, Markdown.Node.children]
  · rw [applied]

theorem codeless_applyMark (asMark : AppliesAsMark mark) (codeless : Codeless nodes) :
    Codeless (Registry.standard.applyMark mark nodes) := by
  rcases applyMark_cases asMark with ⟨outer, isOuter, applied⟩ | ⟨-, applied⟩ | applied
  · rw [applied, enclose]
    split
    · exact Markdown.codeless_nil
    · refine Markdown.codeless_singleton ?_ ?_
      · exact Markdown.kind_ne_code_of_isContainer (isOuter.container nodes)
      · rwa [isOuter.children]
  · rw [applied]
    split
    · exact Markdown.codeless_nil
    · exact Markdown.codeless_singleton (by simp [Markdown.Node.kind]) Markdown.codeless_nil
  · rwa [applied]

/-! Runs. -/

structure Applicable (property : List Markdown.Node → Prop) (piece : Piece) : Prop where
  asMarks : ∀ mark ∈ piece.marks, AppliesAsMark mark
  holds : property piece.nodes

theorem markedRun_induction {property : List Markdown.Node → Prop} (nil : property [])
    (append : ∀ {nodes others}, property nodes → property others → property (nodes ++ others))
    (applied : ∀ {mark nodes}, AppliesAsMark mark → property nodes →
      property (Registry.standard.applyMark mark nodes))
    (applicable : ∀ piece ∈ pieces, Applicable property piece) :
    property (markedRun Registry.standard.applyMark pieces) :=
  markedRun_closed nil append applied fun piece member =>
    ⟨(applicable piece member).asMarks, (applicable piece member).holds⟩

theorem codeless_markedRun (applicable : ∀ piece ∈ pieces, Applicable Codeless piece) :
    Codeless (markedRun Registry.standard.applyMark pieces) :=
  markedRun_induction Markdown.codeless_nil
    (fun first second => Markdown.codeless_append.2 ⟨first, second⟩) codeless_applyMark applicable

structure IsTame (piece : Piece) : Prop where
  asMarks : ∀ mark ∈ piece.marks, AppliesAsMark mark
  codeless : ∀ mark ∈ piece.marks, mark.type = "code" → Codeless piece.nodes

theorem IsTame.without (tame : IsTame piece) (mark : Mark) : IsTame (piece.without mark) where
  asMarks := fun other member => tame.asMarks other (List.mem_filter.1 member).1
  codeless := fun other member => tame.codeless other (List.mem_filter.1 member).1

theorem IsTame.codeless_of_carries (tame : IsTame piece) (carries : piece.carries mark)
    (code : mark.type = "code") : Codeless piece.nodes := by
  obtain ⟨other, member, same⟩ := List.any_eq_true.1 carries
  simp only [Mark.same, Bool.and_eq_true, decide_eq_true_eq] at same
  exact tame.codeless other member (same.1.trans code)

theorem visible_markedRun (tame : ∀ piece ∈ pieces, IsTame piece) :
    visible (valuesOf (markedRun Registry.standard.applyMark pieces)) =
      visible (valuesOf (pieces.flatMap Piece.nodes)) := by
  induction pieces using markedRun.induct with
  | case1 =>
      rw [markedRun_nil]
      rfl
  | case2 piece rest unmarked induction =>
      have others := induction fun other member => tame other (List.mem_cons_of_mem piece member)
      rw [markedRun_of_unmarked _ unmarked, List.flatMap_cons]
      simp only [Markdown.valuesOf_append, Markdown.visible_append, others]
  | case3 piece rest first others marked mark run inside =>
      rename_i behind
      have chosen : mark ∈ piece.marks := marked ▸ Piece.chosen_mem first others rest
      have asMark := (tame piece List.mem_cons_self).asMarks mark chosen
      have source : ∀ other ∈ piece.without mark :: run,
          ∃ source ∈ piece :: rest, source.carries mark ∧ other = source.without mark :=
        fun _ => exists_of_mem_run (carries_of_mem chosen)
      have tameRun : ∀ other ∈ piece.without mark :: run, IsTame other := by
        intro other member
        obtain ⟨source, inPieces, -, rfl⟩ := source other member
        exact (tame source inPieces).without mark
      have codeless : mark.type = "code" → Codeless (markedRun Registry.standard.applyMark
          (piece.without mark :: run)) := by
        intro code
        refine codeless_markedRun fun other member => ⟨(tameRun other member).asMarks, ?_⟩
        obtain ⟨source, inPieces, carries, rfl⟩ := source other member
        exact (tame source inPieces).codeless_of_carries carries code
      have following := behind fun other member => tame other
        (List.mem_cons_of_mem piece ((List.dropWhile_suffix _).subset member))
      have texts : (piece :: rest).flatMap Piece.nodes =
          (piece.without mark :: run).flatMap Piece.nodes ++
            (rest.dropWhile (Piece.carries mark)).flatMap Piece.nodes := by
        have taken : run.flatMap Piece.nodes =
            (rest.takeWhile (Piece.carries mark)).flatMap Piece.nodes := List.flatMap_map ..
        rw [List.flatMap_cons, List.flatMap_cons, taken, List.append_assoc, ← List.flatMap_append,
          List.takeWhile_append_dropWhile]
        rfl
      calc
        visible (valuesOf (markedRun Registry.standard.applyMark (piece :: rest))) =
            visible (valuesOf (markedRun Registry.standard.applyMark
              (piece.without mark :: run))) ++
            visible (valuesOf (markedRun Registry.standard.applyMark
              (rest.dropWhile (Piece.carries mark)))) := by
          rw [markedRun_of_marked _ marked rfl, Markdown.valuesOf_append,
            Markdown.visible_append, visible_applyMark asMark codeless]
        _ = visible (valuesOf ((piece :: rest).flatMap Piece.nodes)) := by
          rw [inside tameRun, following, texts, Markdown.valuesOf_append,
            Markdown.visible_append]

/-! Documents. -/

def leafTypes : List String := ["hardBreak", "horizontalRule", "image"]

def cellTypes : List String := ["tableCell", "tableHeader"]

/-- Texts stand in nodes of the type for them, and code on these. Leaves have no content, and cells
hold paragraphs. Marks and nodes are not of each other's types. -/
structure IsTextual (document : Document.Node) : Prop where
  text : ∀ part ∈ document.parts, part.text.isSome → part.type = "text" ∧ part.content = []
  leaf : ∀ part ∈ document.parts, part.type ∈ leafTypes → part.content = []
  cell : ∀ part ∈ document.parts, part.type ∈ cellTypes →
    ∀ child ∈ part.content, child.type = "paragraph"
  code : ∀ part ∈ document.parts, ∀ mark ∈ part.marks, mark.type = "code" → part.type = "text"
  marks : ∀ part ∈ document.parts, ∀ mark ∈ part.marks, AppliesAsMark mark
  types : ∀ part ∈ document.parts, part.type ∉ markTypes

/-- No text stands in the content of a text. -/
def TextsAreBlank (document : Document.Node) : Prop :=
  ∀ part ∈ document.parts, part.type = "text" →
    visible (Document.Node.textContents part.content).toList = []

theorem mem_parts_of_child (member : node ∈ document.content) :
    ∀ part ∈ node.parts, part ∈ document.parts := fun _ inside =>
  Document.Node.mem_parts.2 (.inr ⟨node, member, inside⟩)

theorem IsTextual.child (textual : IsTextual document) (member : node ∈ document.content) :
    IsTextual node :=
  have inDocument := mem_parts_of_child member
  { text := fun part inside => textual.text part (inDocument part inside)
    leaf := fun part inside => textual.leaf part (inDocument part inside)
    cell := fun part inside => textual.cell part (inDocument part inside)
    code := fun part inside => textual.code part (inDocument part inside)
    marks := fun part inside => textual.marks part (inDocument part inside)
    types := fun part inside => textual.types part (inDocument part inside) }

theorem TextsAreBlank.child (blank : TextsAreBlank document) (member : node ∈ document.content) :
    TextsAreBlank node :=
  fun part inside => blank part (mem_parts_of_child member part inside)

/-! Types. -/

def enclosingTypes : List String :=
  ["doc", "blockquote", "callout", "bulletList", "orderedList", "taskList", "listItem", "taskItem",
    "table", "tableRow"]

theorem mem_of_isRegistered {type : String} (registered : isRegistered type) :
    type ∈ markTypes ++ leafTypes ++ cellTypes ++ enclosingTypes ++
      ["text", "paragraph", "heading", "codeBlock"] := by
  obtain ⟨entry, found⟩ := Option.isSome_iff_exists.1 registered
  have named : entry.name = type := by simpa using List.find?_some found
  have all : ∀ entry ∈ Registry.standard.entries, entry.name ∈
      markTypes ++ leafTypes ++ cellTypes ++ enclosingTypes ++
        ["text", "paragraph", "heading", "codeBlock"] := by decide
  exact named ▸ all entry (List.mem_of_find?_eq_some found)

theorem applyTo_enclosing (enclosing : node.type ∈ enclosingTypes)
    (children : List Markdown.Node) :
    ∃ outer : Markdown.Node, outer.isContainer ∧ outer.children = children ∧
      Registry.standard.applyTo (.node node) children = [outer] := by
  obtain ⟨type, attrs, content, marks, text⟩ := node
  simp only [enclosingTypes, List.mem_cons, List.not_mem_nil, or_false] at enclosing
  rcases enclosing with rfl | rfl | rfl | rfl | rfl | rfl | rfl | rfl | rfl | rfl <;>
    exact ⟨_, rfl, rfl, rfl⟩

/-- What stands in the line of a cell as it is: nodes of a line, and paragraphs in place of which
their children stand. -/
def IsCellBlock (block : Markdown.Node) : Prop := block.isInline ∨ block.kind = .paragraph

def AreCellBlocks (blocks : List Markdown.Node) : Prop := ∀ block ∈ blocks, IsCellBlock block

theorem areCellBlocks_nil : AreCellBlocks [] := fun _ member => absurd member List.not_mem_nil

theorem areCellBlocks_singleton {block : Markdown.Node} (isBlock : IsCellBlock block) :
    AreCellBlocks [block] :=
  fun _ member => List.mem_singleton.1 member ▸ isBlock

theorem valuesOf_inlineForm {block : Markdown.Node} (isBlock : IsCellBlock block) :
    valuesOf (inlineForm block) = valuesOf [block] := by
  cases block with
  | paragraph children =>
      have container : (Markdown.Node.paragraph children).isContainer := rfl
      exact (Markdown.valuesOf_container container).symm
  | text | emphasis | strong | delete | inlineCode | lineBreak | link | image => rfl
  | _ => rcases isBlock with inline | paragraph <;> contradiction

theorem valuesOf_joinBlocks {blocks : List Markdown.Node}
    (areBlocks : AreCellBlocks blocks) : valuesOf (joinBlocks blocks) = valuesOf blocks := by
  have further : ∀ (blocks line : List Markdown.Node), AreCellBlocks blocks →
      valuesOf (blocks.foldl (fun line block =>
        (if line.isEmpty then line else line ++ [.lineBreak]) ++ inlineForm block) line) =
          valuesOf line ++ valuesOf blocks := by
    intro blocks
    induction blocks with
    | nil => simp
    | cons block blocks induction =>
        intro line areBlocks
        have parted : valuesOf (if line.isEmpty then line else line ++ [.lineBreak]) =
            valuesOf line := by
          split
          · rfl
          · rw [Markdown.valuesOf_append]
            exact List.append_nil _
        rw [List.foldl_cons, induction _ fun other member =>
          areBlocks other (List.mem_cons_of_mem block member), Markdown.valuesOf_append, parted,
          valuesOf_inlineForm (areBlocks block List.mem_cons_self), List.append_assoc,
          ← Markdown.valuesOf_append, List.singleton_append]
  exact further blocks [] areBlocks

/-! Nodes. -/

theorem textContent_eq (node : Document.Node) :
    node.textContent.toList =
      (node.text.getD "").toList ++ (Document.Node.textContents node.content).toList := by
  cases node
  rw [Document.Node.textContent, String.toList_append]

theorem IsTextual.textContent_eq (textual : IsTextual node) (other : node.type ≠ "text") :
    node.textContent.toList = (Document.Node.textContents node.content).toList := by
  cases found : node.text with
  | none => simp [Conversion.textContent_eq, found]
  | some text => exact absurd (textual.text node node.mem_parts_self (by simp [found])).1 other

theorem visible_applyTo_text (isText : node.type = "text")
    (blank : visible (Document.Node.textContents node.content).toList = [])
    (children : List Markdown.Node) :
    visible (valuesOf (Registry.standard.applyTo (.node node) children)) =
      visible node.textContent.toList := by
  rw [textContent_eq, Markdown.visible_append, blank, List.append_nil]
  obtain ⟨type, attrs, content, marks, text⟩ := node
  obtain rfl : type = "text" := isText
  cases text with
  | none => rfl
  | some text =>
      have applied : Registry.standard.applyTo
          (.node ⟨"text", attrs, content, marks, some text⟩) children =
            if text.isEmpty then [] else [.text text] := rfl
      rw [applied]
      split
      · next empty => simp [String.isEmpty_iff.1 empty]
      · simp [Markdown.valuesOf_cons, Markdown.Node.value, Markdown.Node.children]

theorem valuesOf_applyTo_leaf (isLeaf : node.type ∈ leafTypes) (children : List Markdown.Node) :
    valuesOf (Registry.standard.applyTo (.node node) children) = [] := by
  obtain ⟨type, attrs, content, marks, text⟩ := node
  simp only [leafTypes, List.mem_cons, List.not_mem_nil, or_false] at isLeaf
  rcases isLeaf with rfl | rfl | rfl <;> rfl

theorem valuesOf_applyTo_cell (isCell : node.type ∈ cellTypes)
    (areBlocks : AreCellBlocks children) :
    valuesOf (Registry.standard.applyTo (.node node) children) = valuesOf children := by
  have container : (Markdown.Node.tableCell (joinBlocks children)).isContainer := rfl
  have applied : Registry.standard.applyTo (.node node) children =
      [.tableCell (joinBlocks children)] := by
    obtain ⟨type, attrs, content, marks, text⟩ := node
    simp only [cellTypes, List.mem_cons, List.not_mem_nil, or_false] at isCell
    rcases isCell with rfl | rfl <;> rfl
  rw [applied, Markdown.valuesOf_container container]
  exact valuesOf_joinBlocks areBlocks

theorem visible_applyTo_block (isBlock : node.type ∈ ["paragraph", "heading", "codeBlock"])
    (inside : visible (valuesOf children) = visible node.textContent.toList) :
    visible (valuesOf (Registry.standard.applyTo (.node node) children)) =
      visible node.textContent.toList := by
  obtain ⟨type, attrs, content, marks, text⟩ := node
  simp only [List.mem_cons, List.not_mem_nil, or_false] at isBlock
  rcases isBlock with rfl | rfl | rfl
  · have applied : Registry.standard.applyTo
        (.node ⟨"paragraph", attrs, content, marks, text⟩) children =
          enclose .paragraph children := rfl
    rw [applied, enclose, ← inside]
    split
    · next empty => rw [List.isEmpty_iff.1 empty]
    · rw [Markdown.valuesOf_container rfl]
      rfl
  · have applied : ∃ depth, Registry.standard.applyTo
        (.node ⟨"heading", attrs, content, marks, text⟩) children =
          [.heading depth (Markdown.foldBreaks children)] := ⟨_, rfl⟩
    obtain ⟨depth, applied⟩ := applied
    rw [applied, Markdown.valuesOf_container rfl]
    exact (Markdown.visible_foldBreaks children).trans inside
  · have applied : ∃ lang, Registry.standard.applyTo
        (.node ⟨"codeBlock", attrs, content, marks, text⟩) children =
          [.code lang none
            (Document.Node.mk "codeBlock" attrs content marks text).textContent] := ⟨_, rfl⟩
    obtain ⟨lang, applied⟩ := applied
    simp [applied, Markdown.valuesOf_cons, Markdown.Node.value, Markdown.Node.children]

theorem visible_applyTo (textual : IsTextual node) (blank : TextsAreBlank node)
    (inside : visible (valuesOf children) =
      visible (Document.Node.textContents node.content).toList)
    (cells : node.type ∈ cellTypes → AreCellBlocks children) :
    visible (valuesOf (Registry.standard.applyTo (.node node) children)) =
      visible node.textContent.toList := by
  by_cases isText : node.type = "text"
  · exact visible_applyTo_text isText (blank node node.mem_parts_self isText) children
  rw [← textual.textContent_eq isText] at inside
  cases registered : isRegistered node.type with
  | false => rw [applyTo_of_not_registered (.node node) registered, inside]
  | true =>
      have known := mem_of_isRegistered registered
      simp only [List.mem_append, or_assoc] at known
      rcases known with isMark | isLeaf | isCell | isEnclosing | isBlock
      · exact absurd isMark (textual.types node node.mem_parts_self)
      · have empty := textual.leaf node node.mem_parts_self isLeaf
        rw [valuesOf_applyTo_leaf isLeaf, textual.textContent_eq isText, empty]
        rfl
      · rw [valuesOf_applyTo_cell isCell (cells isCell), inside]
      · obtain ⟨outer, container, inOuter, applied⟩ := applyTo_enclosing isEnclosing children
        rw [applied, Markdown.valuesOf_container container, inOuter, inside]
      · exact visible_applyTo_block ((List.mem_cons.1 isBlock).resolve_left isText) inside

/-! Walking a document. -/

theorem areCellBlocks_toNodes (isParagraph : node.type = "paragraph") :
    AreCellBlocks (Registry.standard.toNodes node) := by
  obtain ⟨type, attrs, content, marks, text⟩ := node
  obtain rfl : type = "paragraph" := isParagraph
  have written : Registry.standard.toNodes ⟨"paragraph", attrs, content, marks, text⟩ =
      enclose .paragraph (Registry.standard.contentToMarkdown content) := rfl
  rw [written, enclose]
  split
  · exact areCellBlocks_nil
  · exact areCellBlocks_singleton (.inr rfl)

theorem areCellBlocks_applyMark (asMark : AppliesAsMark mark) (areBlocks : AreCellBlocks nodes) :
    AreCellBlocks (Registry.standard.applyMark mark nodes) := by
  rcases applyMark_cases asMark with ⟨outer, isOuter, applied⟩ | ⟨-, applied⟩ | applied
  · rw [applied, enclose]
    split
    · exact areCellBlocks_nil
    · exact areCellBlocks_singleton (.inl (isOuter.inline nodes))
  · rw [applied]
    split
    · exact areCellBlocks_nil
    · exact areCellBlocks_singleton (.inl rfl)
  · rwa [applied]

theorem codeless_toNodes (isText : node.type = "text") :
    Codeless (Registry.standard.toNodes node) := by
  obtain ⟨type, attrs, content, marks, text⟩ := node
  obtain rfl : type = "text" := isText
  cases text with
  | none => exact Markdown.codeless_nil
  | some text =>
      have written : Registry.standard.toNodes ⟨"text", attrs, content, marks, some text⟩ =
          if text.isEmpty then [] else [.text text] := rfl
      rw [written]
      split
      · exact Markdown.codeless_nil
      · exact Markdown.codeless_singleton (by simp [Markdown.Node.kind]) Markdown.codeless_nil

theorem IsTextual.isTame (textual : IsTextual node) :
    IsTame ⟨Registry.standard.schema.orderMarks node.marks, Registry.standard.toNodes node⟩ where
  asMarks := fun mark member =>
    textual.marks node node.mem_parts_self mark (Document.Schema.mem_orderMarks.1 member)
  codeless := fun mark member code => codeless_toNodes
    (textual.code node node.mem_parts_self mark (Document.Schema.mem_orderMarks.1 member) code)

theorem areCellBlocks_contentToMarkdown {content : List Document.Node}
    (textual : ∀ child ∈ content, IsTextual child)
    (paragraphs : ∀ child ∈ content, child.type = "paragraph") :
    AreCellBlocks (Registry.standard.contentToMarkdown content) := by
  rw [Registry.contentToMarkdown, Registry.toPieces_eq]
  refine markedRun_induction areCellBlocks_nil
    (fun first second => List.forall_mem_append.2 ⟨first, second⟩) areCellBlocks_applyMark ?_
  refine List.forall_mem_map.2 fun child member => ⟨(textual child member).isTame.asMarks, ?_⟩
  exact areCellBlocks_toNodes (paragraphs child member)

mutual
theorem visible_toNodes : (node : Document.Node) → IsTextual node → TextsAreBlank node →
    visible (valuesOf (Registry.standard.toNodes node)) = visible node.textContent.toList
  | ⟨type, attrs, content, marks, text⟩, textual, blank => by
      have children : ∀ child ∈ content, IsTextual child := fun child => textual.child
      rw [Registry.toNodes_eq]
      refine visible_applyTo textual blank ?_ fun isCell => ?_
      · rw [Registry.contentToMarkdown, visible_markedRun]
        · exact visible_toPieces content children fun child => blank.child
        · rw [Registry.toPieces_eq]
          exact List.forall_mem_map.2 fun child member => (children child member).isTame
      · have paragraphs := textual.cell _ (Document.Node.mem_parts_self _) isCell
        exact areCellBlocks_contentToMarkdown children paragraphs

theorem visible_toPieces : (nodes : List Document.Node) → (∀ node ∈ nodes, IsTextual node) →
    (∀ node ∈ nodes, TextsAreBlank node) →
    visible (valuesOf ((Registry.standard.toPieces nodes).flatMap Piece.nodes)) =
      visible (Document.Node.textContents nodes).toList
  | [], _, _ => rfl
  | node :: rest, textual, blank => by
      have first := visible_toNodes node (textual node List.mem_cons_self)
        (blank node List.mem_cons_self)
      have others := visible_toPieces rest
        (fun other member => textual other (List.mem_cons_of_mem node member))
        fun other member => blank other (List.mem_cons_of_mem node member)
      rw [Registry.toPieces, List.flatMap_cons, Markdown.valuesOf_append, Markdown.visible_append,
        first, others, Document.Node.textContents, String.toList_append, Markdown.visible_append]
end

theorem valuesOf_spliceRoots (nodes : List Markdown.Node) :
    valuesOf (Registry.spliceRoots nodes) = valuesOf nodes := by
  induction nodes with
  | nil => rfl
  | cons node nodes induction =>
      rw [Registry.spliceRoots, List.flatMap_cons, ← Registry.spliceRoots,
        Markdown.valuesOf_append, induction, ← List.singleton_append, Markdown.valuesOf_append]
      cases node with
      | root children =>
          have container : (Markdown.Node.root children).isContainer := rfl
          rw [Markdown.valuesOf_container container]
          rfl
      | _ => rfl

/-- The values of the markdown of a document are its text in its order, but for white space. -/
theorem visible_toMarkdown (textual : IsTextual document) (blank : TextsAreBlank document) :
    visible (valuesOf (Registry.standard.toMarkdown document)) =
      visible document.textContent.toList := by
  rw [Registry.toMarkdown, valuesOf_spliceRoots, visible_toNodes document textual blank]

def textNode (text : String) (marks : List Mark) : Document.Node :=
  ⟨"text", .empty, [], marks, some text⟩

/-- A bold paragraph in a cell, code within and outside of italic text, marks twice and of types
that are not declared, and text in a node of such a type. -/
def crossedDocument : Document.Node :=
  .plain "doc" [
    .plain "tableCell" [⟨"paragraph", .empty, [textNode "a b" []], [⟨"bold", .empty⟩], none⟩,
      .plain "paragraph" [textNode "c" []]],
    .plain "aside" [textNode "d" [⟨"code", .empty⟩, ⟨"italic", .empty⟩, ⟨"code", .empty⟩],
      textNode "e" [⟨"code", .empty⟩, ⟨"ink", .empty⟩], .plain "hardBreak" []],
    .plain "codeBlock" [.plain "list" [textNode "f" []]]]

theorem visible_toMarkdown_crossed : IsTextual crossedDocument ∧ TextsAreBlank crossedDocument ∧
    visible (valuesOf (Registry.standard.toMarkdown crossedDocument)) =
      ['a', 'b', 'c', 'd', 'e', 'f'] := by
  have textual : IsTextual crossedDocument :=
    { text := by decide
      leaf := by decide
      cell := by decide
      code := by decide
      marks := by decide
      types := by decide }
  have blank : TextsAreBlank crossedDocument := by
    unfold TextsAreBlank
    decide
  refine ⟨textual, blank, (visible_toMarkdown textual blank).trans ?_⟩
  decide

def unvaluedDocument : Document.Node :=
  .plain "doc" [.plain "paragraph" [.plain "text" [textNode "abc" []]]]

theorem toMarkdown_drops_text_content : ¬∀ document, IsTextual document →
    visible (valuesOf (Registry.standard.toMarkdown document)) =
      visible document.textContent.toList := by
  intro kept
  have textual : IsTextual unvaluedDocument :=
    { text := by decide
      leaf := by decide
      cell := by decide
      code := by decide
      marks := by decide
      types := by decide }
  have dropped : Registry.standard.contentToMarkdown [.plain "text" [textNode "abc" []]] = [] := by
    rw [contentToMarkdown_cons rfl, contentToMarkdown_nil]
    rfl
  have written : Registry.standard.toMarkdown unvaluedDocument = [] := by
    rw [unvaluedDocument, toMarkdown_doc, contentToMarkdown_cons rfl, toNodes_paragraph, dropped,
      contentToMarkdown_nil]
    rfl
  have whole := kept unvaluedDocument textual
  rw [written] at whole
  exact absurd whole (by decide)

end EditorMarkdown.Conversion
