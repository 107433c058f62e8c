import EditorMarkdown.Markdown.PlainText
import EditorMarkdown.Proofs.Markdown.Parts

/-!
Neighbouring texts become one, and breaks become spaces. In merging, every node is put behind the
nodes before it, and only a text behind a text is not put there as it is. In folding, every
container holds its folded children.
-/

namespace EditorMarkdown.Markdown

variable {node other : Node} {nodes : List Node}

theorem pushMerging_eq (node : Node) (done : List Node) :
    ((∀ previous ∈ done.head?, ¬(node.kind = .text ∧ previous.kind = .text)) ∧
        pushMerging node done = node :: done) ∨
      ∃ value more rest, node = .text more ∧ done = .text value :: rest ∧
        pushMerging node done = .text (value ++ more) :: rest := by
  cases done with
  | nil => exact .inl ⟨by simp, rfl⟩
  | cons previous rest =>
      cases previous with
      | text value =>
          cases node with
          | text more => exact .inr ⟨value, more, rest, rfl, rfl, rfl⟩
          | _ => exact .inl ⟨by simp [Node.kind], rfl⟩
      | _ => exact .inl ⟨by simp [Node.kind], rfl⟩

theorem pushMerging_ne_nil (node : Node) (done : List Node) : pushMerging node done ≠ [] := by
  rcases pushMerging_eq node done with ⟨-, apart⟩ | ⟨value, more, rest, -, -, merged⟩
  · simp [apart]
  · simp [merged]

theorem mergeTexts_ne_nil (filled : nodes ≠ []) : mergeTexts nodes ≠ [] := by
  obtain ⟨node, rest, rfl⟩ := List.exists_cons_of_ne_nil filled
  have pushed : rest.foldl (fun done node => pushMerging node done) (pushMerging node []) ≠ [] :=
    List.foldlRecOn (motive := (· ≠ [])) rest _ (pushMerging_ne_nil node [])
      fun done _ next _ => pushMerging_ne_nil next done
  simpa [mergeTexts] using pushed

theorem mergeTexts_induction {motive : List Node → Prop} (nil : motive [])
    (pushed : ∀ node ∈ nodes, ∀ done, motive done → motive (pushMerging node done)) :
    motive (mergeTexts nodes).reverse := by
  rw [mergeTexts, List.reverse_reverse]
  exact List.foldlRecOn nodes _ nil fun done before node member => pushed node member done before

theorem forall_mem_mergeTexts {property : Node → Prop}
    (together : ∀ value more, property (.text value) → property (.text more) →
      property (.text (value ++ more)))
    (holds : ∀ node ∈ nodes, property node) : ∀ node ∈ mergeTexts nodes, property node := by
  have reversed : ∀ node ∈ (mergeTexts nodes).reverse, property node := by
    refine mergeTexts_induction (motive := fun done => ∀ node ∈ done, property node) (by simp)
      fun next member done before => ?_
    have holdsNext := holds next member
    rcases pushMerging_eq next done with ⟨-, apart⟩ | ⟨value, more, rest, rfl, rfl, merged⟩
    · rw [apart]
      exact List.forall_mem_cons.2 ⟨holdsNext, before⟩
    · obtain ⟨holdsText, others⟩ := List.forall_mem_cons.1 before
      rw [merged]
      exact List.forall_mem_cons.2 ⟨together value more holdsText holdsNext, others⟩
  exact fun node member => reversed node (List.mem_reverse.2 member)

theorem mem_mergeTexts (member : other ∈ mergeTexts nodes) :
    other ∈ nodes ∨ other.kind = .text := by
  have origin : ∀ node ∈ mergeTexts nodes, node ∈ nodes ∨ node.kind = .text := by
    refine forall_mem_mergeTexts ?_ ?_
    · exact fun _ _ _ _ => .inr rfl
    · exact fun _ inNodes => .inl inNodes
  exact origin other member

/-! Folded breaks. -/

theorem isContainer_withChildren (node : Node) (children : List Node) :
    (node.withChildren children).isContainer = node.isContainer := by
  cases node <;> rfl

theorem breakToSpace_of_isContainer (container : node.isContainer) : node.breakToSpace = node := by
  cases node <;> first | rfl | cases container

theorem rebuild_of_isContainer (container : node.isContainer) :
    node.rebuild Node.breakToSpace mergeTexts = node.withChildren (foldBreaks node.children) := by
  rw [Node.rebuild_eq _ _ _ container, breakToSpace_of_isContainer]
  · rfl
  · rw [isContainer_withChildren, container]

theorem foldBreaks_ne_nil (filled : nodes ≠ []) : foldBreaks nodes ≠ [] :=
  mergeTexts_ne_nil fun empty => filled (List.map_eq_nil_iff.1 empty)

theorem forall_partsOf_foldBreaks {property : Node → Prop}
    (together : ∀ value more, property (.text value) → property (.text more) →
      property (.text (value ++ more)))
    (each : ∀ node ∈ nodes, ∀ part ∈ (node.rebuild Node.breakToSpace mergeTexts).parts,
      property part) :
    ∀ part ∈ Node.partsOf (foldBreaks nodes), property part := by
  have merged : ∀ node ∈ foldBreaks nodes, ∀ part ∈ node.parts, property part := by
    refine forall_mem_mergeTexts (fun value more first second => ?_) (List.forall_mem_map.2 each)
    simp only [Node.parts, List.forall_mem_singleton] at first second ⊢
    exact together value more first second
  intro part member
  obtain ⟨node, inNodes, inside⟩ := Node.mem_partsOf.1 member
  exact merged node inNodes part inside

end EditorMarkdown.Markdown
