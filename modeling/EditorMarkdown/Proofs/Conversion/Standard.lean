import EditorMarkdown.Conversion.Standard
import EditorMarkdown.Conversion.Tree

/-!
The hooks of the standard registry, kind by kind and type by type.
-/

namespace EditorMarkdown.Conversion

open Document (Schema)
open Markdown (Kind)

def standardSchema : Schema := Registry.standard.schema

theorem entries_standard :
    Registry.standard.entries = standardExtensions.map Extension.entry := rfl

theorem applyTo_cases (registry : Registry) (type : String) :
    (∀ subject nodes, subject.type = type → registry.applyTo subject nodes = nodes) ∨
      ∃ entry ∈ registry.entries, ∃ hook ∈ entry.toMarkdown, ∀ subject nodes,
        subject.type = type → registry.applyTo subject nodes = hook subject nodes := by
  cases found : (registry.named? type).bind Entry.toMarkdown with
  | none =>
      refine .inl ?_
      rintro subject nodes rfl
      rw [Registry.applyTo, found]
  | some hook =>
      obtain ⟨entry, registered, hooked⟩ := Option.bind_eq_some_iff.1 found
      refine .inr ⟨entry, List.mem_of_find?_eq_some registered, hook, hooked, ?_⟩
      rintro subject nodes rfl
      rw [Registry.applyTo, found]

def standardFrom : Kind → Option FromMarkdown
  | .root => some (enclosing "doc")
  | .heading => some headingFromMarkdown
  | .paragraph => some (enclosing "paragraph")
  | .thematicBreak => some (standing "horizontalRule")
  | .blockquote => some blockquoteFromMarkdown
  | .callout => some calloutFromMarkdown
  | .list => some listFromMarkdown
  | .listItem => some itemFromMarkdown
  | .code => some codeBlockFromMarkdown
  | .table => some tableFromMarkdown
  | .tableRow => some rowFromMarkdown
  | .tableCell => some cellFromMarkdown
  | .html => none
  | .yaml => none
  | .text => some textFromMarkdown
  | .emphasis => some (applyPlainMark "italic")
  | .strong => some (applyPlainMark "bold")
  | .delete => some (applyPlainMark "strike")
  | .inlineCode => some codeFromMarkdown
  | .lineBreak => some hardBreakFromMarkdown
  | .link => some linkFromMarkdown
  | .image => some imageFromMarkdown

theorem applyFrom_standard (context : Context) (node : Markdown.Node)
    (children : List Document.Node) :
    Registry.standard.applyFrom context node children =
      match standardFrom node.kind with
      | some hook => hook node standardSchema children context
      | none => .ok children := by
  cases node <;> rfl

theorem fromNode_of_fromNodes {registry : Registry} {context : Context} {index : Nat}
    {node : Markdown.Node} {children : List Document.Node}
    (converted : registry.fromNodes (context.enter node index) 0 node.children = .ok children) :
    registry.fromNode context index node =
      registry.applyFrom (context.enter node index) node children := by
  rw [Registry.fromNode_eq, converted]
  rfl

theorem fromNode_standard {context : Context} {index : Nat} {node : Markdown.Node}
    {children : List Document.Node} {hook : FromMarkdown}
    (converted : Registry.standard.fromNodes (context.enter node index) 0 node.children =
      .ok children) (hooked : standardFrom node.kind = some hook) :
    Registry.standard.fromNode context index node =
      hook node standardSchema children (context.enter node index) := by
  rw [fromNode_of_fromNodes converted, applyFrom_standard, hooked]

theorem fromNode_childless {context : Context} {index : Nat} {node : Markdown.Node}
    {hook : FromMarkdown} (childless : node.children = [])
    (hooked : standardFrom node.kind = some hook) :
    Registry.standard.fromNode context index node =
      hook node standardSchema [] (context.enter node index) := by
  apply fromNode_standard _ hooked
  rw [childless]
  rfl

theorem fromNodes_cons {registry : Registry} {context : Context} {index : Nat}
    {node : Markdown.Node} {nodes : List Markdown.Node} {made others : List Document.Node}
    (first : registry.fromNode context index node = .ok made)
    (rest : registry.fromNodes context (index + 1) nodes = .ok others) :
    registry.fromNodes context index (node :: nodes) = .ok (made ++ others) := by
  simp only [Registry.fromNodes, first, rest]

theorem fromNodes_map {α : Type} {registry : Registry} {context : Context}
    {source : α → Markdown.Node} {made : α → Document.Node} {items : List α} (start : Nat)
    (each : ∀ item ∈ items, ∀ index, start ≤ index →
      registry.fromNode context index (source item) = .ok [made item]) :
    registry.fromNodes context start (items.map source) = .ok (items.map made) := by
  induction items generalizing start with
  | nil => rfl
  | cons item rest induction =>
      refine fromNodes_cons (each item (by simp) start (Nat.le_refl start))
        (induction (start + 1) fun other member index behind => ?_)
      exact each other (List.mem_cons_of_mem _ member) index (Nat.le_of_succ_le behind)

end EditorMarkdown.Conversion
