import EditorMarkdown.Proofs.Markdown.Merging
import EditorMarkdown.Text.Blank

/-!
The text that stands in a markdown tree: the values of its texts, its inline code and its code
blocks, in their order. Merging texts leaves it as it is, folding breaks adds spaces to it, and the
plain text of nodes without code blocks has breaks besides.
-/

namespace EditorMarkdown.Markdown

open Text (isWhite)

def visible (text : List Char) : List Char := text.filter fun c => !isWhite c

@[simp] theorem visible_append (first second : List Char) :
    visible (first ++ second) = visible first ++ visible second :=
  List.filter_append ..

/-- The value of a text, of inline code and of a code block. -/
def Node.value : Node → List Char
  | .text value | .inlineCode value | .code _ _ value => value.toList
  | _ => []

def valuesOf (nodes : List Node) : List Char := (Node.partsOf nodes).flatMap Node.value

variable {node : Node} {nodes children : List Node}

@[simp] theorem valuesOf_nil : valuesOf [] = [] := rfl

theorem valuesOf_cons (node : Node) (nodes : List Node) :
    valuesOf (node :: nodes) = node.value ++ valuesOf node.children ++ valuesOf nodes := by
  simp [valuesOf, Node.partsOf, Node.parts_eq]

@[simp] theorem valuesOf_append (nodes others : List Node) :
    valuesOf (nodes ++ others) = valuesOf nodes ++ valuesOf others := by
  rw [valuesOf, Node.partsOf_append, List.flatMap_append]
  rfl

theorem value_of_isContainer (container : node.isContainer) : node.value = [] := by
  cases node <;> first | rfl | cases container

theorem kind_ne_code_of_isContainer (container : node.isContainer) : node.kind ≠ .code := by
  cases node <;> simp_all [Node.kind, Node.isContainer]

theorem valuesOf_container (container : node.isContainer) :
    valuesOf [node] = valuesOf node.children := by
  rw [valuesOf_cons, value_of_isContainer container, valuesOf_nil, List.nil_append,
    List.append_nil]

/-! Merged texts. -/

theorem valuesOf_pushMerging (node : Node) (done : List Node) :
    valuesOf (pushMerging node done).reverse = valuesOf done.reverse ++ valuesOf [node] := by
  unfold pushMerging
  split
  · split <;> simp [valuesOf_cons, Node.value, Node.children]
  · rw [List.reverse_cons, valuesOf_append]

theorem valuesOf_mergeTexts (nodes : List Node) : valuesOf (mergeTexts nodes) = valuesOf nodes := by
  have further : ∀ (nodes done : List Node),
      valuesOf (nodes.foldl (fun done node => pushMerging node done) done).reverse =
        valuesOf done.reverse ++ valuesOf nodes := by
    intro nodes
    induction nodes with
    | nil => simp
    | cons node nodes induction =>
        intro done
        rw [List.foldl_cons, induction, valuesOf_pushMerging, List.append_assoc,
          ← valuesOf_append, List.singleton_append]
  exact further nodes []

/-! Folded breaks. -/

theorem visible_valuesOf_map {change : Node → Node} (nodes : List Node)
    (same : ∀ node ∈ nodes, visible (valuesOf [change node]) = visible (valuesOf [node])) :
    visible (valuesOf (nodes.map change)) = visible (valuesOf nodes) := by
  induction nodes with
  | nil => rfl
  | cons node nodes induction =>
      have first := same node List.mem_cons_self
      have others := induction fun other member => same other (List.mem_cons_of_mem node member)
      rw [List.map_cons, ← List.singleton_append, valuesOf_append, visible_append, first, others,
        ← visible_append, ← valuesOf_append, List.singleton_append]

theorem visible_rebuild (node : Node) :
    visible (valuesOf [node.rebuild Node.breakToSpace mergeTexts]) = visible (valuesOf [node]) := by
  induction node using Node.children_induction with
  | _ node induction =>
      cases container : node.isContainer with
      | true =>
          have inside := (isContainer_withChildren node (foldBreaks node.children)).trans container
          rw [rebuild_of_isContainer container, valuesOf_container inside,
            Node.children_withChildren container, foldBreaks, rebuildAll, valuesOf_mergeTexts,
            visible_valuesOf_map _ induction, valuesOf_container container]
      | false =>
          rw [Node.rebuild_of_not_isContainer _ _ container]
          cases node <;> rfl

theorem visible_foldBreaks (nodes : List Node) :
    visible (valuesOf (foldBreaks nodes)) = visible (valuesOf nodes) := by
  rw [foldBreaks, rebuildAll, valuesOf_mergeTexts,
    visible_valuesOf_map nodes fun node _ => visible_rebuild node]

/-! Plain text. -/

def Codeless (nodes : List Node) : Prop := ∀ part ∈ Node.partsOf nodes, part.kind ≠ .code

theorem codeless_nil : Codeless [] := fun _ member => nomatch member

theorem codeless_cons : Codeless (node :: nodes) ↔
    node.kind ≠ .code ∧ Codeless node.children ∧ Codeless nodes := by
  simp only [Codeless, Node.mem_partsOf_cons, or_imp, forall_and, forall_eq]

theorem codeless_singleton (other : node.kind ≠ .code) (inside : Codeless node.children) :
    Codeless [node] :=
  codeless_cons.2 ⟨other, inside, codeless_nil⟩

theorem codeless_append {others : List Node} :
    Codeless (nodes ++ others) ↔ Codeless nodes ∧ Codeless others := by
  simp only [Codeless, Node.partsOf_append, List.forall_mem_append]

theorem plainText_of_isContainer (container : node.isContainer) :
    node.plainText = plainTexts node.children := by
  cases node <;> first | rfl | cases container

theorem visible_plainTexts_of_each
    (same : ∀ node ∈ nodes, visible node.plainText.toList = visible (valuesOf [node])) :
    visible (plainTexts nodes).toList = visible (valuesOf nodes) := by
  induction nodes with
  | nil => rfl
  | cons node nodes induction =>
      have others := induction fun other member => same other (List.mem_cons_of_mem node member)
      rw [plainTexts, String.toList_append, visible_append, same node List.mem_cons_self, others,
        ← visible_append, ← valuesOf_append, List.singleton_append]

theorem Codeless.of_mem (codeless : Codeless nodes) (member : node ∈ nodes) : Codeless [node] := by
  intro part inside
  refine codeless part (Node.mem_partsOf.2 ⟨node, member, ?_⟩)
  simpa [Node.partsOf] using inside

theorem visible_plainText (node : Node) (codeless : Codeless [node]) :
    visible node.plainText.toList = visible (valuesOf [node]) := by
  induction node using Node.children_induction with
  | _ node induction =>
      obtain ⟨other, inside, -⟩ := codeless_cons.1 codeless
      cases container : node.isContainer with
      | true =>
          rw [plainText_of_isContainer container, valuesOf_container container]
          exact visible_plainTexts_of_each fun child member =>
            induction child member (inside.of_mem member)
      | false =>
          cases node with
          | code => exact absurd rfl other
          | text value | inlineCode value => simp [valuesOf_cons, Node.plainText, Node.value,
              Node.children]
          | lineBreak | thematicBreak | html | yaml | image => rfl
          | _ => cases container

theorem visible_plainTexts (codeless : Codeless nodes) :
    visible (plainTexts nodes).toList = visible (valuesOf nodes) :=
  visible_plainTexts_of_each fun node member => visible_plainText node (codeless.of_mem member)

end EditorMarkdown.Markdown
