import EditorMarkdown.Article.Basic
import EditorMarkdown.Proofs.Conversion.Canonical
import EditorMarkdown.Proofs.Conversion.Standard
import EditorMarkdown.Proofs.Document.Parts
import EditorMarkdown.Proofs.Document.Ranks

/-!
The order in which the marks of a node are listed does not matter. Marks are put in the order of
their ranks before neighbours are compared, and declared marks of different types have only one such
order. The hooks for nodes do not look at marks at all.
-/

namespace EditorMarkdown

namespace Document

variable {first second : Node} {marks moved : List Mark} {schema : Schema}

mutual
/-- Nodes that differ in nothing but the order of the marks, of their own and of those in them. -/
inductive Node.Reordered : Node → Node → Prop
  | node {type : String} {attrs : Attributes} {content others : List Node}
      {marks moved : List Mark} {text : Option String} (order : marks.Perm moved)
      (inside : Node.AllReordered content others) :
      Node.Reordered ⟨type, attrs, content, marks, text⟩ ⟨type, attrs, others, moved, text⟩

inductive Node.AllReordered : List Node → List Node → Prop
  | nil : Node.AllReordered [] []
  | cons {first second : Node} {nodes others : List Node} (head : Node.Reordered first second)
      (tail : Node.AllReordered nodes others) :
      Node.AllReordered (first :: nodes) (second :: others)
end

/-- Marks of declared types, no two of them of the same type. -/
structure Schema.TellsApart (schema : Schema) (marks : List Mark) : Prop where
  declared : ∀ mark ∈ marks, (schema.markSpec? mark.type).isSome
  distinct : (marks.map Mark.type).Nodup

theorem Schema.TellsApart.orderMarks_eq (apart : schema.TellsApart marks)
    (order : marks.Perm moved) : schema.orderMarks marks = schema.orderMarks moved := by
  have movedDeclared : ∀ mark ∈ moved, (schema.markSpec? mark.type).isSome :=
    fun mark member => apart.declared mark (order.mem_iff.2 member)
  have movedDistinct : (moved.map Mark.type).Nodup :=
    (order.map Mark.type).nodup_iff.1 apart.distinct
  apply (ranked_orderMarks apart.declared apart.distinct).eq_of_perm
    (ranked_orderMarks movedDeclared movedDistinct)
  exact (orderMarks_perm marks).trans (order.trans (orderMarks_perm moved).symm)

theorem Node.Reordered.type_eq (reordered : first.Reordered second) : first.type = second.type := by
  cases reordered
  rfl

theorem Node.Reordered.attrs_eq (reordered : first.Reordered second) :
    first.attrs = second.attrs := by
  cases reordered
  rfl

theorem Node.Reordered.order (reordered : first.Reordered second) :
    first.marks.Perm second.marks := by
  cases reordered with
  | node order _ => exact order

theorem Node.Reordered.content (reordered : first.Reordered second) :
    Node.AllReordered first.content second.content := by
  cases reordered with
  | node _ inside => exact inside

theorem Node.AllReordered.map_eq {α : Type} {property : Node → α}
    (same : ∀ {first second : Node}, first.Reordered second → property first = property second) :
    ∀ {nodes others : List Node}, Node.AllReordered nodes others →
      nodes.map property = others.map property
  | _, _, .nil => rfl
  | _, _, .cons head tail => by rw [List.map_cons, List.map_cons, same head, tail.map_eq same]

mutual
theorem Node.Reordered.textContent_eq :
    ∀ {first second : Node}, first.Reordered second → first.textContent = second.textContent
  | _, _, .node _ inside => by
      rw [Node.textContent, Node.textContent, inside.textContents_eq]

theorem Node.AllReordered.textContents_eq :
    ∀ {nodes others : List Node}, Node.AllReordered nodes others →
      Node.textContents nodes = Node.textContents others
  | _, _, .nil => rfl
  | _, _, .cons head tail => by
      rw [Node.textContents, Node.textContents, head.textContent_eq, tail.textContents_eq]
end

end Document

namespace Conversion

variable {registry : Registry} {first second : Document.Node}

/-! The hooks. -/

def IgnoresOrder (hook : ToMarkdown) : Prop :=
  ∀ {first second : Document.Node}, first.Reordered second →
    ∀ nodes, hook (.node first) nodes = hook (.node second) nodes

def Registry.IgnoresOrder (registry : Registry) : Prop :=
  ∀ entry ∈ registry.entries, ∀ hook ∈ entry.toMarkdown, Conversion.IgnoresOrder hook

theorem ignoresOrder_codeBlockToMarkdown : IgnoresOrder codeBlockToMarkdown := by
  intro first second reordered nodes
  have attrs := reordered.attrs_eq
  have value := reordered.textContent_eq
  simp only [codeBlockToMarkdown, Subject.node?, Option.map_some, Subject.attrString?,
    Subject.attr?, Subject.attrs, attrs, value]

theorem columnAligns_eq (reordered : first.Reordered second) :
    columnAligns first = columnAligns second := by
  have content := reordered.content
  unfold columnAligns
  generalize first.content = rows, second.content = others at content
  cases content with
  | nil => rfl
  | cons row _ =>
      apply row.content.map_eq
      intro cell other cells
      rw [Document.Node.attrString?, Document.Node.attr?, cells.attrs_eq]
      rfl

theorem ignoresOrder_tableToMarkdown : IgnoresOrder tableToMarkdown := by
  intro first second reordered nodes
  simp only [tableToMarkdown, Subject.node?, Option.map_some, columnAligns_eq reordered]

theorem ignoresOrder_standard : Registry.standard.IgnoresOrder := by
  unfold Registry.IgnoresOrder
  rw [entries_standard]
  simp only [standardExtensions, markExtensions, blockExtensions, listExtensions, tableExtensions,
    List.cons_append, List.nil_append, List.map_cons, List.map_nil, List.forall_mem_cons]
  refine ⟨?link, ?bold, ?italic, ?strike, ?code, ?doc, ?paragraph, ?text, ?hardBreak, ?heading,
    ?blockquote, ?callout, ?codeBlock, ?horizontalRule, ?image, ?bulletList, ?orderedList,
    ?taskList, ?listItem, ?taskItem, ?table, ?tableRow, ?tableCell, ?tableHeader, by simp⟩
  case codeBlock =>
    rintro _ ⟨⟩
    exact ignoresOrder_codeBlockToMarkdown
  case table =>
    rintro _ ⟨⟩
    exact ignoresOrder_tableToMarkdown
  -- the other hooks read no more of a node than its type, its attributes and its text
  all_goals
    rintro _ ⟨⟩ _ _ ⟨_, _⟩ nodes
    rfl

/-! The walk. -/

theorem applyTo_reordered (ignores : registry.IgnoresOrder) (reordered : first.Reordered second)
    (nodes : List Markdown.Node) :
    registry.applyTo (.node first) nodes = registry.applyTo (.node second) nodes := by
  have type : (Subject.node second).type = first.type := reordered.type_eq.symm
  rcases applyTo_cases registry first.type with
    unhooked | ⟨entry, inEntries, hook, hooked, applied⟩
  · rw [unhooked _ _ rfl, unhooked _ _ type]
  · rw [applied _ _ rfl, applied _ _ type]
    exact ignores entry inEntries hook hooked reordered nodes

mutual
theorem toNodes_reordered (ignores : registry.IgnoresOrder) :
    ∀ {first second : Document.Node}, first.Reordered second →
      (∀ part ∈ first.parts, registry.schema.TellsApart part.marks) →
      registry.toNodes first = registry.toNodes second
  | _, _, .node order inside, apart => by
      have inner := (Document.Node.forall_mem_parts.1 apart).2
      rw [Registry.toNodes_eq, Registry.toNodes_eq, Registry.contentToMarkdown,
        Registry.contentToMarkdown, toPieces_reordered ignores inside inner]
      exact applyTo_reordered ignores (.node order inside) _

theorem toPieces_reordered (ignores : registry.IgnoresOrder) :
    ∀ {nodes others : List Document.Node}, Document.Node.AllReordered nodes others →
      (∀ node ∈ nodes, ∀ part ∈ node.parts, registry.schema.TellsApart part.marks) →
      registry.toPieces nodes = registry.toPieces others
  | _, _, .nil, _ => rfl
  | _, _, .cons head tail, apart => by
      obtain ⟨ofHead, ofTail⟩ := List.forall_mem_cons.1 apart
      have marks := (Document.Node.forall_mem_parts.1 ofHead).1
      rw [Registry.toPieces, Registry.toPieces, toNodes_reordered ignores head ofHead,
        toPieces_reordered ignores tail ofTail, marks.orderMarks_eq head.order]
end

end Conversion

namespace Document.Node

open Conversion (Registry linkMark standardSchema)

/-- Documents that differ in nothing but the order in which their nodes list declared marks of
different types are the same markdown, as a tree and as a text. -/
theorem toMarkdown_ignores_order {first second : Node} (reordered : first.Reordered second)
    (apart : ∀ part ∈ first.parts, standardSchema.TellsApart part.marks) :
    Registry.standard.toMarkdown first = Registry.standard.toMarkdown second ∧
      ∀ frontMatter, first.toText .standard frontMatter = second.toText .standard frontMatter := by
  have same : Registry.standard.toMarkdown first = Registry.standard.toMarkdown second := by
    rw [Registry.toMarkdown, Registry.toMarkdown,
      Conversion.toNodes_reordered Conversion.ignoresOrder_standard reordered apart]
  exact ⟨same, fun frontMatter => by rw [toText, toText, same]⟩

def inParagraph (line : List Node) : Node := plain "doc" [plain "paragraph" line]

theorem toMarkdown_ignores_order_shared :
    let bold : Mark := ⟨"bold", .empty⟩
    let italic : Mark := ⟨"italic", .empty⟩
    let strike : Mark := ⟨"strike", .empty⟩
    let first := inParagraph [ofText "a" [italic, bold], ofText "b" [strike, italic]]
    let second := inParagraph [ofText "a" [bold, italic], ofText "b" [italic, strike]]
    first.Reordered second ∧ (∀ part ∈ first.parts, standardSchema.TellsApart part.marks) ∧
      Registry.standard.toMarkdown first = Registry.standard.toMarkdown second ∧
      first.toText .standard none = "***a**~~b~~*\n" := by
  intro bold italic strike first second
  have reordered : first.Reordered second :=
    .node .rfl (.cons (.node .rfl (.cons (.node (.swap bold italic []) .nil)
      (.cons (.node (.swap italic strike []) .nil) .nil))) .nil)
  have apart : ∀ part ∈ first.parts, standardSchema.TellsApart part.marks := by
    have each : ∀ part ∈ first.parts,
        (∀ mark ∈ part.marks, (standardSchema.markSpec? mark.type).isSome) ∧
          (part.marks.map Mark.type).Nodup := by decide
    exact fun part member => ⟨(each part member).1, (each part member).2⟩
  obtain ⟨same, sameText⟩ := toMarkdown_ignores_order reordered apart
  exact ⟨reordered, apart, same, (sameText none).trans (by decide +kernel)⟩

/-- Of two marks of one type the one that is listed first is the outer one. -/
example :
    (inParagraph [ofText "a" [linkMark "b" none, linkMark "c" none]]).toText .standard none ≠
      (inParagraph [ofText "a" [linkMark "c" none, linkMark "b" none]]).toText .standard none := by
  decide +kernel

end Document.Node

end EditorMarkdown
