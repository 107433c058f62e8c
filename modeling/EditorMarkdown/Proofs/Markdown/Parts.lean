import EditorMarkdown.Markdown.Node

/-!
The parts of a markdown tree: a node and everything in it. What is shown of a node from its children
holds of every node. A part is reached by a path, the places of children on the way down.
-/

namespace EditorMarkdown.Markdown.Node

theorem sizeOf_lt_of_mem_children {child node : Node} (member : child ∈ node.children) :
    sizeOf child < sizeOf node := by
  have smaller : sizeOf child < sizeOf node.children := List.sizeOf_lt_of_mem member
  have bounded : sizeOf node.children ≤ sizeOf node := by
    cases node <;> simp [children] <;> omega
  omega

theorem children_induction {motive : Node → Prop}
    (step : ∀ node, (∀ child ∈ node.children, motive child) → motive node) (node : Node) :
    motive node := by
  induction node using WellFounded.induction (measure (sizeOf : Node → Nat)).wf with
  | _ node induction =>
      exact step node fun child member => induction child (sizeOf_lt_of_mem_children member)

mutual
/-- A node and everything in it, in the order of the text. -/
def parts : Node → List Node
  | .root children => .root children :: partsOf children
  | .heading depth children => .heading depth children :: partsOf children
  | .paragraph children => .paragraph children :: partsOf children
  | .blockquote children => .blockquote children :: partsOf children
  | .callout kind children => .callout kind children :: partsOf children
  | .list ordered start spread children =>
      .list ordered start spread children :: partsOf children
  | .listItem spread checked children => .listItem spread checked children :: partsOf children
  | .table align children => .table align children :: partsOf children
  | .tableRow children => .tableRow children :: partsOf children
  | .tableCell children => .tableCell children :: partsOf children
  | .emphasis children => .emphasis children :: partsOf children
  | .strong children => .strong children :: partsOf children
  | .delete children => .delete children :: partsOf children
  | .link url title children => .link url title children :: partsOf children
  | leaf => [leaf]

def partsOf : List Node → List Node
  | [] => []
  | node :: rest => node.parts ++ partsOf rest
end

theorem mem_partsOf {part : Node} {nodes : List Node} :
    part ∈ partsOf nodes ↔ ∃ node ∈ nodes, part ∈ node.parts := by
  induction nodes with
  | nil => simp [partsOf]
  | cons node rest induction => simp [partsOf, induction]

theorem parts_eq (node : Node) : node.parts = node :: partsOf node.children := by
  cases node <;> rfl

theorem partsOf_append (nodes others : List Node) :
    partsOf (nodes ++ others) = partsOf nodes ++ partsOf others := by
  induction nodes with
  | nil => rfl
  | cons node rest induction => simp [partsOf, induction]

theorem mem_partsOf_cons {part node : Node} {rest : List Node} :
    part ∈ partsOf (node :: rest) ↔
      part = node ∨ part ∈ partsOf node.children ∨ part ∈ partsOf rest := by
  rw [partsOf, List.mem_append, parts_eq, List.mem_cons, or_assoc]

theorem mem_parts {part node : Node} :
    part ∈ node.parts ↔ part = node ∨ ∃ child ∈ node.children, part ∈ child.parts := by
  rw [parts_eq, List.mem_cons, mem_partsOf]

theorem forall_mem_parts {property : Node → Prop} {node : Node} :
    (∀ part ∈ node.parts, property part) ↔
      property node ∧ ∀ child ∈ node.children, ∀ part ∈ child.parts, property part := by
  constructor
  · intro holds
    refine ⟨holds node (mem_parts.2 (.inl rfl)), fun child member part inner => ?_⟩
    exact holds part (mem_parts.2 (.inr ⟨child, member, inner⟩))
  · rintro ⟨head, below⟩ part member
    rcases mem_parts.1 member with rfl | ⟨child, inChildren, inner⟩
    · exact head
    · exact below child inChildren part inner

def at? (node : Node) : List Nat → Option Node
  | [] => some node
  | index :: path => node.children[index]?.bind fun child => child.at? path

@[simp] theorem at?_nil (node : Node) : node.at? [] = some node := rfl

theorem at?_append (node : Node) (outer inner : List Nat) :
    node.at? (outer ++ inner) = (node.at? outer).bind fun part => part.at? inner := by
  induction outer generalizing node with
  | nil => rfl
  | cons index outer induction =>
      cases found : node.children[index]? with
      | none => simp [at?, found]
      | some child => simp [at?, found, induction]

theorem at?_concat (node : Node) (path : List Nat) (index : Nat) :
    node.at? (path ++ [index]) = (node.at? path).bind fun part => part.children[index]? := by
  rw [at?_append]
  congr 1
  funext part
  simp [at?]

theorem mem_parts_of_at? {node part : Node} {path : List Nat} (found : node.at? path = some part) :
    part ∈ node.parts := by
  induction path generalizing node with
  | nil =>
      cases found
      exact mem_parts.2 (.inl rfl)
  | cons index path induction =>
      obtain ⟨child, isChild, below⟩ := Option.bind_eq_some_iff.1 found
      exact mem_parts.2 (.inr ⟨child, List.mem_of_getElem? isChild, induction below⟩)

end EditorMarkdown.Markdown.Node
