import EditorMarkdown.Markdown.Kind

/-!
The markdown tree. A node holds its own fields and, if it is a container, its children.
-/

namespace EditorMarkdown.Markdown

inductive Node where
  | root (children : List Node)
  | heading (depth : UInt8) (children : List Node)
  | paragraph (children : List Node)
  | thematicBreak
  | blockquote (children : List Node)
  | callout (kind : CalloutKind) (children : List Node)
  | list (ordered : Bool) (start : Option UInt32) (spread : Bool) (children : List Node)
  | listItem (spread : Bool) (checked : Option Bool) (children : List Node)
  | code (lang detail : Option String) (value : String)
  | table (align : List (Option Align)) (children : List Node)
  | tableRow (children : List Node)
  | tableCell (children : List Node)
  | html (value : String)
  | yaml (value : String)
  | text (value : String)
  | emphasis (children : List Node)
  | strong (children : List Node)
  | delete (children : List Node)
  | inlineCode (value : String)
  | lineBreak
  | link (url : String) (title : Option String) (children : List Node)
  | image (url : String) (title : Option String) (alt : String)
  deriving Repr, Inhabited

namespace Node

def kind : Node → Kind
  | .root _ => .root
  | .heading _ _ => .heading
  | .paragraph _ => .paragraph
  | .thematicBreak => .thematicBreak
  | .blockquote _ => .blockquote
  | .callout _ _ => .callout
  | .list _ _ _ _ => .list
  | .listItem _ _ _ => .listItem
  | .code _ _ _ => .code
  | .table _ _ => .table
  | .tableRow _ => .tableRow
  | .tableCell _ => .tableCell
  | .html _ => .html
  | .yaml _ => .yaml
  | .text _ => .text
  | .emphasis _ => .emphasis
  | .strong _ => .strong
  | .delete _ => .delete
  | .inlineCode _ => .inlineCode
  | .lineBreak => .lineBreak
  | .link _ _ _ => .link
  | .image _ _ _ => .image

def children : Node → List Node
  | .root children | .heading _ children | .paragraph children | .blockquote children
  | .callout _ children | .list _ _ _ children | .listItem _ _ children | .table _ children
  | .tableRow children | .tableCell children | .emphasis children | .strong children
  | .delete children | .link _ _ children => children
  | .thematicBreak | .code _ _ _ | .html _ | .yaml _ | .text _ | .inlineCode _ | .lineBreak
  | .image _ _ _ => []

def isContainer : Node → Bool
  | .root _ | .heading _ _ | .paragraph _ | .blockquote _ | .callout _ _ | .list _ _ _ _
  | .listItem _ _ _ | .table _ _ | .tableRow _ | .tableCell _ | .emphasis _ | .strong _
  | .delete _ | .link _ _ _ => true
  | .thematicBreak | .code _ _ _ | .html _ | .yaml _ | .text _ | .inlineCode _ | .lineBreak
  | .image _ _ _ => false

def isInline : Node → Bool
  | .text _ | .emphasis _ | .strong _ | .delete _ | .inlineCode _ | .lineBreak | .link _ _ _
  | .image _ _ _ => true
  | _ => false

/-- A container with other children; any other node stays as it is. -/
def withChildren (children : List Node) : Node → Node
  | .root _ => .root children
  | .heading depth _ => .heading depth children
  | .paragraph _ => .paragraph children
  | .blockquote _ => .blockquote children
  | .callout kind _ => .callout kind children
  | .list ordered start spread _ => .list ordered start spread children
  | .listItem spread checked _ => .listItem spread checked children
  | .table align _ => .table align children
  | .tableRow _ => .tableRow children
  | .tableCell _ => .tableCell children
  | .emphasis _ => .emphasis children
  | .strong _ => .strong children
  | .delete _ => .delete children
  | .link url title _ => .link url title children
  | leaf => leaf

@[simp] theorem withChildren_children (node : Node) : node.withChildren node.children = node := by
  cases node <;> rfl

@[simp] theorem kind_withChildren (children : List Node) (node : Node) :
    (node.withChildren children).kind = node.kind := by
  cases node <;> rfl

theorem children_withChildren {node : Node} (h : node.isContainer) (children : List Node) :
    (node.withChildren children).children = children := by
  cases node <;> simp_all [isContainer, withChildren, Node.children]

end Node

/-- Adds a node after the nodes of a reversed list; a text after a text continues it. -/
def pushMerging (node : Node) : List Node → List Node
  | .text previous :: rest =>
      match node with
      | .text value => .text (previous ++ value) :: rest
      | other => other :: .text previous :: rest
  | nodes => node :: nodes

def mergeTexts (nodes : List Node) : List Node :=
  (nodes.foldl (fun done node => pushMerging node done) []).reverse

/-- Wraps each run of inline nodes in a paragraph and keeps the other nodes; `run` holds the run
that is open, reversed. -/
private def wrapRun (run : List Node) : List Node → List Node
  | [] => if run.isEmpty then [] else [.paragraph run.reverse]
  | node :: rest =>
      if node.isInline then wrapRun (node :: run) rest
      else if run.isEmpty then node :: wrapRun [] rest
      else .paragraph run.reverse :: node :: wrapRun [] rest

def wrapInline (nodes : List Node) : List Node := wrapRun [] nodes

private theorem mem_wrapRun {node : Node} {nodes run : List Node}
    (member : node ∈ wrapRun run nodes) :
    (node ∈ nodes ∧ node.isInline = false) ∨
      ∃ line, line <:+: run.reverse ++ nodes ∧ node = .paragraph line := by
  induction nodes generalizing run with
  | nil =>
      unfold wrapRun at member
      split at member
      · cases member
      · exact .inr ⟨run.reverse, by simp, List.mem_singleton.1 member⟩
  | cons next rest induction =>
      unfold wrapRun at member
      split at member
      · rcases induction member with ⟨inRest, other⟩ | ⟨line, inside, named⟩
        · exact .inl ⟨List.mem_cons_of_mem _ inRest, other⟩
        · exact .inr ⟨line, by simpa using inside, named⟩
      · rename_i other
        have afterwards : node ∈ next :: wrapRun [] rest →
            (node ∈ next :: rest ∧ node.isInline = false) ∨
              ∃ line, line <:+: run.reverse ++ next :: rest ∧ node = .paragraph line := by
          intro member
          rcases List.mem_cons.1 member with rfl | member
          · exact .inl ⟨List.mem_cons_self, by simpa using other⟩
          · rcases induction member with ⟨inRest, other⟩ | ⟨line, inside, named⟩
            · exact .inl ⟨List.mem_cons_of_mem _ inRest, other⟩
            · have behind : rest <:+: run.reverse ++ next :: rest :=
                ⟨run.reverse ++ [next], [], by simp⟩
              exact .inr ⟨line, (by simpa using inside : line <:+: rest).trans behind, named⟩
        split at member
        · exact afterwards member
        · rcases List.mem_cons.1 member with rfl | member
          · exact .inr ⟨run.reverse, List.infix_append' [] _ _, rfl⟩
          · exact afterwards member

private theorem mem_wrapRun_of_block {node : Node} {nodes : List Node} (member : node ∈ nodes)
    (block : node.isInline = false) (run : List Node) : node ∈ wrapRun run nodes := by
  induction nodes generalizing run with
  | nil => cases member
  | cons next rest induction =>
      unfold wrapRun
      rcases List.mem_cons.1 member with rfl | behind
      · cases run <;> simp [block]
      · have later := induction behind
        split
        · exact later _
        · split
          · exact List.mem_cons_of_mem _ (later [])
          · exact List.mem_cons_of_mem _ (List.mem_cons_of_mem _ (later []))

private theorem wrapRun_of_inline {nodes : List Node} (inline : ∀ node ∈ nodes, node.isInline)
    (run : List Node) : wrapRun run nodes = wrapRun (nodes.reverse ++ run) [] := by
  induction nodes generalizing run with
  | nil => rfl
  | cons next rest induction =>
      have others := induction fun node member => inline node (List.mem_cons_of_mem _ member)
      calc
        wrapRun run (next :: rest) = wrapRun (next :: run) rest :=
          if_pos (inline next List.mem_cons_self)
        _ = wrapRun (rest.reverse ++ next :: run) [] := others (next :: run)
        _ = wrapRun ((next :: rest).reverse ++ run) [] := by simp

theorem mem_wrapInline {node : Node} {nodes : List Node} (member : node ∈ wrapInline nodes) :
    (node ∈ nodes ∧ node.isInline = false) ∨ ∃ line, line <:+: nodes ∧ node = .paragraph line :=
  mem_wrapRun member

theorem mem_wrapInline_of_block {node : Node} {nodes : List Node} (member : node ∈ nodes)
    (block : node.isInline = false) : node ∈ wrapInline nodes :=
  mem_wrapRun_of_block member block []

theorem wrapInline_of_inline {nodes : List Node} (filled : nodes ≠ [])
    (inline : ∀ node ∈ nodes, node.isInline) : wrapInline nodes = [.paragraph nodes] := by
  rw [wrapInline, wrapRun_of_inline inline]
  simp [wrapRun, filled]

end EditorMarkdown.Markdown
