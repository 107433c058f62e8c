import EditorMarkdown.Proofs.Conversion.Lines
import EditorMarkdown.Proofs.Event.Translation
import EditorMarkdown.Proofs.Markdown.Parts
import Mathlib.Data.List.Chain

/-!
What the builder makes of events is tidy, whatever the events are: no two texts are next to each
other, and an item holds no inline node directly. Every event leaves the open constructs tidy.
-/

namespace EditorMarkdown

open Conversion (TextsApart)
open Markdown (Node pushMerging pushMerging_eq wrapInline)

/-- No texts are next to each other in a node and, if it is an item, nothing in it is inline. -/
structure Markdown.Node.IsTidy (node : Node) : Prop where
  apart : TextsApart node.children
  blocks : node.kind = .listItem → ∀ child ∈ node.children, child.isInline = false

def Markdown.Node.IsTidyTree (node : Node) : Prop := ∀ part ∈ node.parts, part.IsTidy

/-- Nodes that can be the children of a node, up to what an item asks for. -/
structure TidySiblings (nodes : List Node) : Prop where
  apart : TextsApart nodes
  trees : ∀ node ∈ nodes, node.IsTidyTree

variable {nodes done children : List Node} {node : Node}

theorem tidySiblings_nil : TidySiblings [] := ⟨.nil, by simp⟩

theorem TidySiblings.reverse (tidy : TidySiblings nodes) : TidySiblings nodes.reverse where
  apart := tidy.apart.reverse
  trees := fun node member => tidy.trees node (List.mem_reverse.1 member)

theorem isTidyTree_of_children (tidy : TidySiblings node.children)
    (blocks : node.kind = .listItem → ∀ child ∈ node.children, child.isInline = false) :
    node.IsTidyTree :=
  Node.forall_mem_parts.2 ⟨⟨tidy.apart, blocks⟩, tidy.trees⟩

theorem isTidyTree_leaf (leaf : node.children = []) : node.IsTidyTree :=
  isTidyTree_of_children (leaf ▸ tidySiblings_nil) (by simp [leaf])

theorem TidySiblings.pushMerging (tidy : TidySiblings done) (tree : node.IsTidyTree) :
    TidySiblings (pushMerging node done) where
  apart := tidy.apart.pushMerging node
  trees := by
    rcases pushMerging_eq node done with ⟨-, pushed⟩ | ⟨value, more, rest, rfl, rfl, merged⟩
    · rw [pushed]
      exact List.forall_mem_cons.2 ⟨tree, tidy.trees⟩
    · rw [merged]
      exact List.forall_mem_cons.2 ⟨isTidyTree_leaf rfl, (List.forall_mem_cons.1 tidy.trees).2⟩

theorem textsApart_of_blocks (blocks : ∀ node ∈ nodes, node.isInline = false) :
    TextsApart nodes := by
  refine List.Pairwise.isChain (List.pairwise_of_forall_mem_list ?_)
  intro first member _ _ both
  have block := blocks first member
  cases first <;> simp_all [Node.kind, Node.isInline]

theorem TidySiblings.wrapInline (tidy : TidySiblings nodes) : TidySiblings (wrapInline nodes) ∧
    ∀ node ∈ wrapInline nodes, node.isInline = false := by
  have blocks : ∀ node ∈ Markdown.wrapInline nodes, node.isInline = false := by
    intro node member
    rcases Markdown.mem_wrapInline member with ⟨-, block⟩ | ⟨line, -, rfl⟩
    · exact block
    · rfl
  refine ⟨⟨textsApart_of_blocks blocks, fun node member => ?_⟩, blocks⟩
  rcases Markdown.mem_wrapInline member with ⟨inNodes, -⟩ | ⟨line, inside, rfl⟩
  · exact tidy.trees node inNodes
  · have apart : TextsApart line := tidy.apart.infix inside
    have trees : ∀ node ∈ line, node.IsTidyTree := fun node member =>
      tidy.trees node (inside.subset member)
    exact isTidyTree_of_children ⟨apart, trees⟩ (by simp [Node.kind])

/-! Tidy builders. -/

namespace Builder

theorem isTidyTree_closed (tidy : TidySiblings children) (frame : Frame) :
    ∀ node ∈ closed children frame, node.IsTidyTree := by
  cases frame with
  | transparent => exact tidy.trees
  | item checked loose =>
      obtain ⟨wrapped, blocks⟩ := tidy.wrapInline
      have tree : (Node.listItem loose checked (wrapInline children)).IsTidyTree :=
        isTidyTree_of_children wrapped fun _ => blocks
      simpa [closed] using tree
  | code | image | yaml | html => simpa [closed] using isTidyTree_leaf rfl
  | _ => simpa [closed] using isTidyTree_of_children (by exact tidy) (by simp [Node.kind])

structure IsTidy (builder : Builder) : Prop where
  opened : ∀ top ∈ builder.stack, TidySiblings top.children
  root : TidySiblings builder.root

variable {builder : Builder}

theorem isTidy_empty : IsTidy .empty := ⟨by simp [empty], tidySiblings_nil⟩

theorem IsTidy.push (tidy : builder.IsTidy) (tree : node.IsTidyTree) :
    (builder.push node).IsTidy := by
  unfold Builder.push
  split
  · exact ⟨tidy.opened, tidy.root.pushMerging tree⟩
  · rename_i top rest opened
    obtain ⟨first, others⟩ := List.forall_mem_cons.1 (opened ▸ tidy.opened)
    exact ⟨List.forall_mem_cons.2 ⟨first.pushMerging tree, others⟩, tidy.root⟩

theorem IsTidy.pushAll (tidy : builder.IsTidy) (trees : ∀ node ∈ nodes, node.IsTidyTree) :
    (builder.pushAll nodes).IsTidy := by
  induction nodes generalizing builder with
  | nil => exact tidy
  | cons node rest induction =>
      obtain ⟨tree, others⟩ := List.forall_mem_cons.1 trees
      exact induction (tidy.push tree) others

theorem IsTidy.leave (tidy : builder.IsTidy) : builder.leave.IsTidy := by
  unfold Builder.leave
  split
  · exact tidy
  · rename_i top rest opened
    obtain ⟨first, others⟩ := List.forall_mem_cons.1 (opened ▸ tidy.opened)
    exact IsTidy.pushAll ⟨others, tidy.root⟩ (isTidyTree_closed first.reverse top.frame)

theorem IsTidy.of_children {stack : List Open} (tidy : builder.IsTidy)
    (same : stack.map Open.children = builder.stack.map Open.children) :
    IsTidy { builder with stack := stack } where
  opened := by
    have kept : ∀ children ∈ stack.map Open.children, TidySiblings children := by
      rw [same]
      exact List.forall_mem_map.2 tidy.opened
    exact List.forall_mem_map.1 kept
  root := tidy.root

theorem IsTidy.enter (tidy : builder.IsTidy) (tag : Tag) : (builder.enter tag).IsTidy := by
  obtain ⟨_ | ⟨⟨frame, children⟩, rest⟩, root⟩ := builder
  · rw [enter_root]
    exact ⟨by simpa using tidySiblings_nil, tidy.root⟩
  · rw [enter_open]
    exact ⟨List.forall_mem_cons.2 ⟨tidySiblings_nil, List.forall_mem_cons.2
      (List.forall_mem_cons.1 tidy.opened)⟩, tidy.root⟩

theorem IsTidy.text (tidy : builder.IsTidy) (value : String) : (builder.text value).IsTidy := by
  unfold Builder.text
  split
  case h_4 => exact tidy.push (isTidyTree_leaf rfl)
  all_goals
    rename_i opened
    exact tidy.of_children (by simp [opened])

theorem IsTidy.html (tidy : builder.IsTidy) (value : String) : (builder.html value).IsTidy := by
  unfold Builder.html
  split
  · rename_i opened
    exact tidy.of_children (by simp [opened])
  · exact tidy.push (isTidyTree_leaf rfl)

theorem map_children_checkItem (checked : Bool) (stack : List Open) :
    (checkItem checked stack).map Open.children = stack.map Open.children := by
  induction stack with
  | nil => rfl
  | cons top rest induction =>
      obtain ⟨frame, children⟩ := top
      cases frame with
      | item => rfl
      | _ => exact congrArg (List.cons children) induction

theorem IsTidy.leaf (tidy : builder.IsTidy) (content : Leaf) : (builder.leaf content).IsTidy := by
  cases content with
  | text value => exact tidy.text value
  | softBreak => exact tidy.text "\n"
  | html value => exact tidy.html value
  | inlineHtml value =>
      unfold Builder.leaf
      dsimp only
      split <;> exact tidy.push (isTidyTree_leaf rfl)
  | task checked => exact tidy.of_children (map_children_checkItem checked builder.stack)
  | other => exact tidy
  | _ => exact tidy.push (isTidyTree_leaf rfl)

theorem IsTidy.step (tidy : builder.IsTidy) (event : Event) : (builder.step event).IsTidy := by
  cases event with
  | enter tag => exact tidy.enter tag
  | leave => exact tidy.leave
  | leaf content => exact tidy.leaf content

theorem IsTidy.foldl (tidy : builder.IsTidy) (events : List Event) :
    (events.foldl Builder.step builder).IsTidy := by
  induction events generalizing builder with
  | nil => exact tidy
  | cons event _ induction => exact induction (tidy.step event)

theorem IsTidy.leaveAll (tidy : builder.IsTidy) (count : Nat) :
    (leaveAll count builder).IsTidy := by
  induction count generalizing builder with
  | zero => exact tidy
  | succ count induction => exact induction tidy.leave

theorem IsTidy.finish (tidy : builder.IsTidy) : TidySiblings builder.finish :=
  (tidy.leaveAll builder.stack.length).root.reverse

end Builder

theorem Event.isTidyTree_fold (events : List Event) : (Node.root (fold events)).IsTidyTree :=
  isTidyTree_of_children (Builder.isTidy_empty.foldl events).finish (by simp [Node.kind])

/-- The builder is the recursion over the tree of a balanced run, and leaves a tidy tree behind
every run. -/
theorem Event.fold_translates :
    (∀ events, Balanced events ↔ ∃! trees, Tree.flattenAll trees = events) ∧
      (∀ trees, fold (Tree.flattenAll trees) = Tree.translate trees) ∧
      ∀ events, ∀ part ∈ (Node.root (fold events)).parts, part.IsTidy :=
  ⟨fun _ => balanced_iff, fold_flattenAll, isTidyTree_fold⟩

/-- Of two task markers the one in the nested item is not for the outer one, a construct without a
node of its own leaves its text to the text around it, and a run that breaks off is tidy. -/
theorem Event.fold_translates_tasks :
    let inner : Tree := .node (.list none) [.node .item [.leaf (.task false)]]
    let item : Tree := .node .item [.leaf (.task true), .leaf (.text "a"),
      .node .other [.leaf .softBreak, .leaf (.text "b")], inner]
    fold (Tree.flattenAll [.node (.list none) [item]]) =
        [.list false none false [.listItem false (some true) [.paragraph [.text "a\nb"],
          .list false none false [.listItem false (some false) []]]]] ∧
      ∀ part ∈ (Node.root (fold [.leave, .enter .item, .leaf (.text "a")])).parts, part.IsTidy :=
  ⟨(fold_translates.2.1 _).trans rfl, fold_translates.2.2 _⟩

end EditorMarkdown
