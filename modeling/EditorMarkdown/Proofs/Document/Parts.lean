import EditorMarkdown.Document.Node

/-!
The parts of a document tree: a node and everything in it.
-/

namespace EditorMarkdown.Document.Node

mutual
def parts : Node → List Node
  | ⟨type, attrs, content, marks, text⟩ => ⟨type, attrs, content, marks, text⟩ :: partsOf content

def partsOf : List Node → List Node
  | [] => []
  | node :: rest => node.parts ++ partsOf rest
end

theorem mem_partsOf {part : Node} {nodes : List Node} :
    part ∈ partsOf nodes ↔ ∃ node ∈ nodes, part ∈ node.parts := by
  induction nodes with
  | nil => simp [partsOf]
  | cons node rest induction => simp [partsOf, induction]

theorem parts_eq (node : Node) : node.parts = node :: partsOf node.content := by
  cases node
  rfl

theorem mem_parts {part node : Node} :
    part ∈ node.parts ↔ part = node ∨ ∃ child ∈ node.content, part ∈ child.parts := by
  rw [parts_eq, List.mem_cons, mem_partsOf]

theorem mem_parts_self (node : Node) : node ∈ node.parts :=
  mem_parts.2 (.inl rfl)

theorem forall_mem_parts {property : Node → Prop} {node : Node} :
    (∀ part ∈ node.parts, property part) ↔
      property node ∧ ∀ child ∈ node.content, ∀ part ∈ child.parts, property part := by
  constructor
  · intro holds
    refine ⟨holds node node.mem_parts_self, fun child member part inner => ?_⟩
    exact holds part (mem_parts.2 (.inr ⟨child, member, inner⟩))
  · rintro ⟨head, below⟩ part member
    rcases mem_parts.1 member with rfl | ⟨child, inContent, inner⟩
    · exact head
    · exact below child inContent part inner

end EditorMarkdown.Document.Node
