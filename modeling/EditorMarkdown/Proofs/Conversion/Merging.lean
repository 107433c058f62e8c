import EditorMarkdown.Proofs.Conversion.Bundles
import EditorMarkdown.Proofs.Markdown.Parts

/-!
Marked texts are merged as far as they can be. A bundle ends where its mark does, so what comes
next is not enclosed in the same way; and in a bundle no text carries the mark any more, so
nothing in it is enclosed in that way again.
-/

namespace EditorMarkdown.Conversion

open Document (Mark)
open Markdown.Node (partsOf)

variable {mark other : Mark} {pieces : List Piece} {node : Markdown.Node}
variable {nodes inner : List Markdown.Node}

/-- Whether two nodes could be one node that encloses what both of them enclose. -/
def joins : Markdown.Node → Markdown.Node → Bool
  | .strong _, .strong _ | .emphasis _, .emphasis _ | .delete _, .delete _
  | .inlineCode _, .inlineCode _ => true
  | .link url title _, .link other rest _ => url = other && title = rest
  | _, _ => false

def Apart (nodes : List Markdown.Node) : Prop :=
  nodes.IsChain fun first second => ¬joins first second

def enclosingKinds : List Markdown.Kind := [.strong, .emphasis, .delete, .link]

/-- A node whose children are all apart and which, if it encloses what carries a mark, holds no
other node of its kind. -/
structure MergedBelow (node : Markdown.Node) : Prop where
  apart : Apart node.children
  once : node.kind ∈ enclosingKinds → ∀ part ∈ partsOf node.children, part.kind ≠ node.kind

structure FullyMerged (nodes : List Markdown.Node) : Prop where
  apart : Apart nodes
  below : ∀ part ∈ partsOf nodes, MergedBelow part

theorem mergedBelow_of_childless (childless : node.children = []) : MergedBelow node where
  apart := by
    rw [childless]
    exact .nil
  once := by
    intro _ part member
    rw [childless] at member
    cases member

/-! Nodes that marks make. -/

theorem Makes.eq_of_joins {made second : Markdown.Node} {more : List Markdown.Node}
    (makes : Makes mark inner made) (makesOther : Makes other more second)
    (joined : joins made second) : mark = other := by
  cases makes with
  | outer encloses _ =>
      cases makesOther with
      | outer enclosesOther _ =>
          cases encloses <;> cases enclosesOther <;> simp_all [joins]
      | code _ => cases encloses <;> cases joined
  | code _ =>
      cases makesOther with
      | outer enclosesOther _ => cases enclosesOther <;> cases joined
      | code _ => rfl

theorem Makes.type_eq_of_kind_eq {made second : Markdown.Node} {more : List Markdown.Node}
    (makes : Makes mark inner made) (makesOther : Makes other more second)
    (same : made.kind = second.kind) : mark.type = other.type := by
  cases makes with
  | outer encloses _ =>
      cases makesOther with
      | outer enclosesOther _ =>
          cases encloses <;> cases enclosesOther <;> first | rfl | cases same
      | code _ => cases encloses <;> cases same
  | code _ =>
      cases makesOther with
      | outer enclosesOther _ => cases enclosesOther <;> cases same
      | code _ => rfl

/-- What a mark makes holds just what it was made of, or nothing. -/
theorem Makes.children_eq {made : Markdown.Node} (makes : Makes mark inner made) :
    made.children = inner ∨ made.children = [] := by
  cases makes with
  | outer encloses _ => cases encloses <;> exact .inl rfl
  | code _ => exact .inr rfl

/-! Neighbours. -/

theorem joins_text (value : String) (node : Markdown.Node) :
    ¬joins (.text value) node ∧ ¬joins node (.text value) := by
  cases node <;> simp [joins]

/-- A bundle starts with a text, or with what a mark of its first piece makes. -/
theorem Bundled.first (bundled : Bundled pieces nodes) (isFirst : node ∈ nodes.head?) :
    (∃ value, node = .text value) ∨
      ∃ piece ∈ pieces.head?, ∃ mark ∈ piece.marks, ∃ inner, Makes mark inner node := by
  cases bundled with
  | nil => cases isFirst
  | text _ _ _ =>
      cases isFirst
      exact .inl ⟨_, rfl⟩
  | marked first _ _ makes _ _ =>
      cases isFirst
      exact .inr ⟨_, rfl, _, first.carried, _, makes⟩

theorem Bundled.apart (bundled : Bundled pieces nodes) : Apart nodes := by
  induction bundled with
  | nil => exact .nil
  | text _ _ _ induction =>
      exact List.isChain_cons.2 ⟨fun next _ => (joins_text _ next).1, induction⟩
  | marked _ _ ends makes _ behind _ induction =>
      refine List.isChain_cons.2 ⟨fun next isNext joined => ?_, induction⟩
      rcases behind.first isNext with ⟨value, rfl⟩ | ⟨piece, isHead, other, carried, _, makesNext⟩
      · exact (joins_text value _).2 joined
      · have same := makes.eq_of_joins makesNext joined
        exact ends piece isHead (same ▸ carried)

/-! Depth. -/

theorem Makes.mem_partsOf {made part : Markdown.Node} (makes : Makes mark inner made)
    (member : part ∈ partsOf (made :: nodes)) :
    part = made ∨ part ∈ partsOf inner ∨ part ∈ partsOf nodes := by
  rcases Markdown.Node.mem_partsOf_cons.1 member with rfl | inMade | behind
  · exact .inl rfl
  · rcases makes.children_eq with children | childless
    · exact .inr (.inl (children ▸ inMade))
    · rw [childless] at inMade
      cases inMade
  · exact .inr (.inr behind)

theorem mem_partsOf_text {value : String} {part : Markdown.Node}
    (member : part ∈ partsOf (.text value :: nodes)) :
    part = .text value ∨ part ∈ partsOf nodes := by
  rcases Markdown.Node.mem_partsOf_cons.1 member with rfl | inText | behind
  · exact .inl rfl
  · cases inText
  · exact .inr behind

theorem Bundled.part (bundled : Bundled pieces nodes) :
    ∀ part ∈ partsOf nodes, (∃ value, part = .text value) ∨
      ∃ piece ∈ pieces, ∃ mark ∈ piece.marks, ∃ inner, Makes mark inner part := by
  induction bundled with
  | nil =>
      intro part member
      cases member
  | text _ _ _ induction =>
      intro part member
      rcases mem_partsOf_text member with rfl | behind
      · exact .inl ⟨_, rfl⟩
      · refine (induction part behind).imp_right fun ⟨piece, inRest, made⟩ => ?_
        exact ⟨piece, List.mem_cons_of_mem _ inRest, made⟩
  | @marked _ _ _ rest _ _ _ first _ _ makes _ _ inductionInside induction =>
      intro part member
      rcases makes.mem_partsOf member with rfl | inside | behind
      · exact .inr ⟨_, List.mem_cons_self, _, first.carried, _, makes⟩
      · apply (inductionInside part inside).imp_right
        intro ⟨piece, inRun, other, carried, made⟩
        obtain ⟨source, isSource, rfl⟩ := List.mem_map.1 inRun
        have inSource := (List.mem_filter.1 carried).1
        exact ⟨source, List.mem_append_left rest isSource, other, inSource, made⟩
      · refine (induction part behind).imp_right fun ⟨piece, inRest, made⟩ => ?_
        exact ⟨piece, List.mem_cons_of_mem _ (List.mem_append_right _ inRest), made⟩

theorem Bundled.kind_ne {made : Markdown.Node}
    (makes : Makes mark inner made) (isText : ∀ piece ∈ pieces, IsTextPiece piece)
    (carried : ∀ piece ∈ pieces, mark ∈ piece.marks)
    (inside : Bundled (pieces.map (Piece.without mark)) inner)
    (enclosing : made.kind ∈ enclosingKinds) : ∀ part ∈ partsOf inner, part.kind ≠ made.kind := by
  intro part member same
  rcases inside.part part member with ⟨value, rfl⟩ | ⟨piece, inRun, other, inPiece, more, makesPart⟩
  · rw [← same] at enclosing
    simp [enclosingKinds, Markdown.Node.kind] at enclosing
  · obtain ⟨source, isSource, rfl⟩ := List.mem_map.1 inRun
    have differ := Document.Schema.type_ne_of_mem_filter_same (carried source isSource)
      (isText source isSource).ranked inPiece
    exact differ (makesPart.type_eq_of_kind_eq makes same)

theorem Bundled.mergedBelow (bundled : Bundled pieces nodes)
    (isText : ∀ piece ∈ pieces, IsTextPiece piece) :
    ∀ part ∈ partsOf nodes, MergedBelow part := by
  induction bundled with
  | nil =>
      intro part member
      cases member
  | text _ _ _ induction =>
      intro part member
      rcases mem_partsOf_text member with rfl | behind
      · exact mergedBelow_of_childless rfl
      · apply induction _ part behind
        exact fun piece inRest => isText piece (List.mem_cons_of_mem _ inRest)
  | @marked mark head others rest inner made nodes first carried ends makes inside behind
      inductionInside induction =>
      intro part member
      have isRun : ∀ piece ∈ head :: others, IsTextPiece piece :=
        fun piece inRun => isText piece (List.mem_append_left rest inRun)
      have carriedRun : ∀ piece ∈ head :: others, mark ∈ piece.marks :=
        List.forall_mem_cons.2 ⟨first.carried, carried⟩
      rcases makes.mem_partsOf member with rfl | inInner | inNodes
      · rcases makes.children_eq with children | childless
        · constructor
          · rw [children]
            exact inside.apart
          · rw [children]
            exact inside.kind_ne makes isRun carriedRun
        · exact mergedBelow_of_childless childless
      · exact inductionInside (IsTextPiece.without_all isRun mark) part inInner
      · apply induction _ part inNodes
        intro piece inRest
        exact isText piece (List.mem_cons_of_mem _ (List.mem_append_right _ inRest))

/-- No two neighbours at any depth of the markdown of texts are both strong, emphasized, deleted,
inline code or links to the same place, and no strong, emphasized, deleted node or link holds
another node of its kind. -/
theorem fullyMerged_contentToMarkdown {line : List Document.Node}
    (marked : ∀ node ∈ line, MarkedText node) :
    FullyMerged (Registry.standard.contentToMarkdown line) := by
  obtain ⟨isText, bundled⟩ := bundled_contentToMarkdown marked
  exact ⟨bundled.apart, bundled.mergedBelow isText⟩

theorem fullyMerged_contentToMarkdown_crossing :
    FullyMerged (Registry.standard.contentToMarkdown
      [.ofText "a" [⟨"italic", .empty⟩, ⟨"bold", .empty⟩],
        .ofText "b" [codeMark, linkMark "u" none, ⟨"italic", .empty⟩],
        .ofText "c" [linkMark "u" none, codeMark]]) := by
  apply fullyMerged_contentToMarkdown
  have isItalic : CanonicalMark ⟨"italic", .empty⟩ := .italic
  have isBold : CanonicalMark ⟨"bold", .empty⟩ := .bold
  have isCode : CanonicalMark codeMark := .code
  have isLink : CanonicalMark (linkMark "u" none) := .link "u" none
  simp only [List.forall_mem_cons]
  refine ⟨⟨rfl, ⟨"a", by decide, rfl⟩, ?_, by decide⟩, ⟨rfl, ⟨"b", by decide, rfl⟩, ?_, by decide⟩,
    ⟨rfl, ⟨"c", by decide, rfl⟩, ?_, by decide⟩, fun _ member => absurd member List.not_mem_nil⟩
  · simp [Document.Node.ofText, isItalic, isBold]
  · simp [Document.Node.ofText, isCode, isLink, isItalic]
  · simp [Document.Node.ofText, isCode, isLink]

end EditorMarkdown.Conversion
