import EditorMarkdown.Proofs.Conversion.Tables

/-!
Canonical documents come back from markdown.
-/

namespace EditorMarkdown.Conversion

theorem codeContent_of_whole {content : List Document.Node}
    (whole : content = [] ∨ ∃ value, value ≠ "" ∧ content = [.ofText value []]) :
    ∃ value, content = codeContent value := by
  rcases whole with rfl | ⟨value, filled, rfl⟩
  · exact ⟨"", rfl⟩
  · exact ⟨value, by simp [codeContent, filled]⟩

theorem exists_restored {place : Place} {node : Document.Node} (canonical : Canonical place node) :
    ∃ source, Restored node source := by
  induction canonical with
  | paragraph filled inline => exact ⟨_, restored_paragraph filled inline⟩
  | heading bounded inline unbroken merged =>
      exact ⟨_, restored_heading bounded inline unbroken merged⟩
  | blockquote inside induction =>
      obtain ⟨sources, restored⟩ := exists_allRestored induction
      exact ⟨_, restored_blockquote restored⟩
  | callout kind inside induction =>
      obtain ⟨sources, restored⟩ := exists_allRestored induction
      exact ⟨_, restored_callout kind restored⟩
  | codeBlock given whole =>
      obtain ⟨value, rfl⟩ := codeContent_of_whole whole
      exact ⟨_, restored_codeBlock given value⟩
  | horizontalRule => exact ⟨_, restored_horizontalRule⟩
  | bulletList inside untasked induction =>
      obtain ⟨sources, restored⟩ := exists_allRestored induction
      exact ⟨_, restored_bulletList restored untasked⟩
  | orderedList start inside induction =>
      obtain ⟨sources, restored⟩ := exists_allRestored induction
      exact ⟨_, restored_orderedList start restored⟩
  | taskList filled inside tasks induction =>
      obtain ⟨sources, restored⟩ := exists_allRestored induction
      exact ⟨_, restored_taskList restored filled tasks⟩
  | emptyTable => exact ⟨_, restored_emptyTable⟩
  | table headers cells aligned => exact exists_restored_table headers cells aligned
  | item checked filled inside induction =>
      obtain ⟨sources, restored⟩ := exists_allRestored induction
      exact ⟨_, restored_item checked filled restored⟩
  | emptyItem checked => exact ⟨_, restored_emptyItem checked⟩

/-- The markdown of a canonical document converts back to the document. -/
theorem toDocument_toMarkdown {document : Document.Node} (canonical : CanonicalDocument document) :
    Registry.standard.toDocument (Registry.standard.toMarkdown document) = .ok document := by
  obtain ⟨blocks, rfl, inside⟩ := canonical
  obtain ⟨sources, restored⟩ :=
    exists_allRestored fun block member => exists_restored (inside block member)
  have made : Registry.standard.toMarkdown (.plain "doc" blocks) = sources := by
    calc
      Registry.standard.toMarkdown (.plain "doc" blocks) =
          Registry.spliceRoots [.root (Registry.standard.contentToMarkdown blocks)] := by
        rw [Registry.toMarkdown, Registry.toNodes_eq]
        rfl
      _ = sources := by simp [Registry.spliceRoots, restored.made]
  have converted := restored.back (Context.top.enter (.root sources) 0) 0 rfl
  have root : Registry.standard.fromNode .top 0 (.root sources) = .ok [.plain "doc" blocks] := by
    rw [fromNode_standard converted rfl]
    rfl
  rw [made, Registry.toDocument, root]
  rfl

theorem toDocument_toMarkdown_table :
    let bold : Document.Mark := ⟨"bold", .empty⟩
    let line : List Document.Node :=
      [.ofText "a" [linkMark "u" none, bold], .ofText "b" [bold, ⟨"code", .empty⟩]]
    let table : Document.Node := .plain "table"
      [rowOf "tableHeader" [⟨some .left, [line, line]⟩], rowOf "tableCell" [⟨some .left, [[]]⟩]]
    let document : Document.Node := .plain "doc" [.plain "taskList" [itemOf (some true) [table]]]
    CanonicalDocument document ∧
      Registry.standard.toDocument (Registry.standard.toMarkdown document) = .ok document := by
  intro bold line table document
  have first : CanonicalInline (.ofText "a" [linkMark "u" none, bold]) := by
    refine ⟨.text (by decide), ?_, ?_, fun _ => rfl⟩
    · intro mark member
      rcases List.mem_pair.1 member with rfl | rfl
      · exact .link "u" none
      · exact .bold
    · exact List.pairwise_pair.2 (by decide)
  have second : CanonicalInline (.ofText "b" [bold, ⟨"code", .empty⟩]) := by
    refine ⟨.text (by decide), ?_, ?_, fun _ => rfl⟩
    · intro mark member
      rcases List.mem_pair.1 member with rfl | rfl
      · exact .bold
      · exact .code
    · exact List.pairwise_pair.2 (by decide)
  have canonicalLine : CanonicalLine line := by
    refine ⟨?_, ?_⟩
    · intro node member
      rcases List.mem_pair.1 member with rfl | rfl
      · exact first
      · exact second
    · exact List.isChain_pair.2 fun both => absurd both.1 (by decide)
  have header : Cell.Canonical ⟨some .left, [line, line]⟩ := by
    refine ⟨.inr (by simp [line]), by simpa using canonicalLine, ?_⟩
    simp [line, Unbroken, Document.Node.ofText, Document.Node.plain]
  have cell : Cell.Canonical ⟨some .left, [[]]⟩ := by
    refine ⟨.inl rfl, ?_, by simp [Unbroken]⟩
    simpa using CanonicalLine.mk (by simp) .nil
  have aligned : ∀ row ∈ [[(⟨some .left, [[]]⟩ : Cell)]], ∀ (column : Nat) (cell : Cell),
      row[column]? = some cell →
        cell.align = [(⟨some .left, [line, line]⟩ : Cell)][column]?.bind Cell.align := by
    intro row member column cell found
    rw [List.mem_singleton.1 member] at found
    cases column with
    | zero =>
        cases found
        rfl
    | succ column => simp at found
  have canonicalTable : Canonical .block table :=
    .table (by simpa using header) (by simpa using cell) aligned
  have item : Canonical .item (itemOf (some true) [table]) :=
    .item (some true) (by simp) (by simpa using canonicalTable)
  have canonical : CanonicalDocument document := by
    refine ⟨_, rfl, ?_⟩
    simpa using Canonical.taskList (by simp) (by simpa using item) (by simp [itemOf]; rfl)
  exact ⟨canonical, toDocument_toMarkdown canonical⟩

end EditorMarkdown.Conversion
