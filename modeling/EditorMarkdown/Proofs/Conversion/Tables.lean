import EditorMarkdown.Proofs.Conversion.Restored

/-!
Canonical tables come back from markdown: the lines of a cell are joined and split at the same
breaks, the first row makes headers again, and the alignments come back from the first row.
-/

namespace EditorMarkdown.Conversion

open Document (Mark)

variable {context : Context} {index : Nat} {line : List Document.Node}

/-! Lines of a cell. -/

theorem Grouped.append {others : List Document.Node} {nodes more : List Markdown.Node}
    (grouped : Grouped line nodes) (rest : Grouped others more) :
    Grouped (line ++ others) (nodes ++ more) := by
  induction grouped with
  | nil => exact rest
  | leaf form _ induction => exact .leaf form induction
  | code filled _ induction => exact .code filled induction
  | enclosed encloses marked inside _ _ induction =>
      rw [List.append_assoc]
      exact .enclosed encloses marked inside induction

def brokenLines (lines : List (List Document.Node)) : List Document.Node :=
  lines.flatMap fun line => .plain "hardBreak" [] :: line

def lineParagraphs (lines : List (List Document.Node)) : List Markdown.Node :=
  lines.map fun line => .paragraph (Registry.standard.contentToMarkdown line)

theorem contentToMarkdown_paragraphs {lines : List (List Document.Node)}
    (filled : ∀ line ∈ lines, line ≠ []) (canonical : ∀ line ∈ lines, CanonicalLine line) :
    Registry.standard.contentToMarkdown (lines.map (.plain "paragraph")) =
      lineParagraphs lines := by
  induction lines with
  | nil => exact contentToMarkdown_nil
  | cons line rest induction =>
      have grouped := grouped_contentToMarkdown (canonical line (by simp))
      have others := induction
        (fun other member => filled other (List.mem_cons_of_mem _ member))
        (fun other member => canonical other (List.mem_cons_of_mem _ member))
      rw [List.map_cons, contentToMarkdown_cons rfl, toNodes_paragraph, others]
      simp [lineParagraphs, grouped.ne_nil (filled line (by simp))]

/-- The paragraphs are joined one after the other, so the line is grouped at each step. -/
theorem grouped_joinBlocks {line : List Document.Node} {lines : List (List Document.Node)}
    (filled : line ≠ []) (canonical : ∀ other ∈ line :: lines, CanonicalLine other) :
    Grouped (line ++ brokenLines lines) (joinBlocks (lineParagraphs (line :: lines))) := by
  suffices general : ∀ (lines : List (List Document.Node)) (done : List Document.Node)
      (sources : List Markdown.Node), (∀ other ∈ lines, CanonicalLine other) → done ≠ [] →
      Grouped done sources →
      Grouped (done ++ brokenLines lines) ((lineParagraphs lines).foldl (fun line block =>
        (if line.isEmpty then line else line ++ [.lineBreak]) ++ inlineForm block) sources) by
    have first := grouped_contentToMarkdown (canonical line (by simp))
    exact general lines line _ (fun other member => canonical other (List.mem_cons_of_mem _ member))
      filled first
  intro lines
  induction lines with
  | nil =>
      intro done sources _ _ grouped
      simpa [brokenLines, lineParagraphs] using grouped
  | cons next rest induction =>
      intro done sources canonical filled grouped
      have isFilled := grouped.ne_nil filled
      have broken : Grouped [Document.Node.plain "hardBreak" []] [.lineBreak] :=
        .leaf .hardBreak .nil
      have joined := (grouped.append broken).append
        (grouped_contentToMarkdown (canonical next (by simp)))
      have others := induction _ _
        (fun other member => canonical other (List.mem_cons_of_mem _ member)) (by simp) joined
      simpa [brokenLines, lineParagraphs, isFilled, inlineForm] using others

theorem splitBreaks_of_unbroken (unbroken : Unbroken line) : splitBreaks line = [line] := by
  induction line with
  | nil => rfl
  | cons node rest induction =>
      have others := induction fun other member => unbroken other (List.mem_cons_of_mem _ member)
      simp [splitBreaks, unbroken node (by simp), others]

theorem splitBreaks_append_break (unbroken : Unbroken line) (rest : List Document.Node) :
    splitBreaks (line ++ .plain "hardBreak" [] :: rest) = line :: splitBreaks rest := by
  induction line with
  | nil => simp [splitBreaks, Document.Node.plain]
  | cons node others induction =>
      have inside := induction fun other member => unbroken other (List.mem_cons_of_mem _ member)
      simp [splitBreaks, unbroken node (by simp), inside]

theorem splitBreaks_brokenLines {lines : List (List Document.Node)} :
    ∀ {line : List Document.Node}, (∀ other ∈ line :: lines, Unbroken other) →
      splitBreaks (line ++ brokenLines lines) = line :: lines := by
  induction lines with
  | nil =>
      intro line unbroken
      simpa [brokenLines] using splitBreaks_of_unbroken (unbroken line (by simp))
  | cons next rest induction =>
      intro line unbroken
      have others := induction fun other member => unbroken other (List.mem_cons_of_mem _ member)
      have cut := splitBreaks_append_break (unbroken line (by simp)) (next ++ brokenLines rest)
      rw [others] at cut
      simpa [brokenLines] using cut

/-! Cells. -/

/-- A cell as it comes back before the table sets the alignments. -/
def Cell.unaligned (cell : Cell) : Cell := { cell with align := none }

theorem cellFromMarkdown_of_split {cell : Cell} {children : List Document.Node}
    (split : splitBreaks children = cell.lines) (source : Markdown.Node) :
    cellFromMarkdown source standardSchema children context =
      .ok [cell.unaligned.node (if isHeaderCell context then "tableHeader" else "tableCell")] := by
  have paragraphs : cell.lines.mapM (fun line => standardSchema.node "paragraph" .empty line) =
      .ok (cell.lines.map (.plain "paragraph")) := List.mapM_pure
  simp only [cellFromMarkdown, split, paragraphs]
  split <;> rfl

/-- The type of the cells in a row; the row is the node that the context has entered last. -/
def cellType (context : Context) : String :=
  if (context.frame? 0).any fun row => row.kind = .tableRow && row.index = 0 then "tableHeader"
  else "tableCell"

structure CellRestored (cell : Cell) (source : Markdown.Node) : Prop where
  made : ∀ type ∈ ["tableHeader", "tableCell"],
    Registry.standard.toNodes (cell.node type) = [source]
  back : ∀ (context : Context) (index : Nat), context.headingLevel = none →
    Registry.standard.fromNode context index source = .ok [cell.unaligned.node (cellType context)]

theorem toNodes_cell {cell : Cell} {blocks : List Markdown.Node}
    (made : Registry.standard.contentToMarkdown (cell.lines.map (.plain "paragraph")) = blocks) :
    ∀ type ∈ ["tableHeader", "tableCell"],
      Registry.standard.toNodes (cell.node type) = [.tableCell (joinBlocks blocks)] := by
  intro type isCell
  have content : (cell.node type).content = cell.lines.map (.plain "paragraph") := rfl
  rw [Registry.toNodes_eq, content, made]
  rcases List.mem_pair.1 isCell with rfl | rfl <;> rfl

theorem exists_cellRestored {cell : Cell} (canonical : cell.Canonical) :
    ∃ source, CellRestored cell source := by
  rcases canonical.filled with single | ⟨some, filled⟩
  · have made : Registry.standard.contentToMarkdown (cell.lines.map (.plain "paragraph")) = [] := by
      rw [single]
      exact contentToMarkdown_emptyParagraph
    have split : splitBreaks [] = cell.lines := single.symm
    refine ⟨.tableCell [], toNodes_cell made, fun context index _ => ?_⟩
    rw [fromNode_childless rfl rfl]
    exact cellFromMarkdown_of_split split _
  · obtain ⟨line, lines, equality⟩ := List.exists_cons_of_ne_nil some
    have canonicalLines := canonical.line
    have unbroken := canonical.unbroken
    rw [equality] at filled canonicalLines unbroken
    have made : Registry.standard.contentToMarkdown (cell.lines.map (.plain "paragraph")) =
        lineParagraphs (line :: lines) := by
      rw [equality, contentToMarkdown_paragraphs filled canonicalLines]
    have split : splitBreaks (line ++ brokenLines lines) = cell.lines := by
      rw [equality, splitBreaks_brokenLines unbroken]
    have grouped := grouped_joinBlocks (filled line (by simp)) canonicalLines
    refine ⟨.tableCell _, toNodes_cell made, fun context index outside => ?_⟩
    have converted : Registry.standard.fromNodes
        (context.enter (.tableCell (joinBlocks (lineParagraphs (line :: lines)))) index) 0
        (joinBlocks (lineParagraphs (line :: lines))) = .ok (line ++ brokenLines lines) :=
      grouped.fromNodes 0 (.inl outside)
    rw [fromNode_standard converted rfl]
    exact cellFromMarkdown_of_split split _

theorem exists_cellsRestored {cells : List Cell} (canonical : ∀ cell ∈ cells, cell.Canonical) :
    ∃ sources, (∀ type ∈ ["tableHeader", "tableCell"],
        Registry.standard.contentToMarkdown (cells.map (Cell.node type)) = sources) ∧
      ∀ (context : Context) (index : Nat), context.headingLevel = none →
        Registry.standard.fromNodes context index sources =
          .ok (cells.map fun cell => cell.unaligned.node (cellType context)) := by
  induction cells with
  | nil => exact ⟨[], fun _ _ => contentToMarkdown_nil, fun _ _ _ => rfl⟩
  | cons cell rest induction =>
      obtain ⟨source, restored⟩ := exists_cellRestored (canonical cell (by simp))
      obtain ⟨sources, made, back⟩ :=
        induction fun other member => canonical other (List.mem_cons_of_mem _ member)
      refine ⟨source :: sources, fun type isCell => ?_, fun context index outside => ?_⟩
      · rw [List.map_cons, contentToMarkdown_cons rfl, restored.made type isCell, made type isCell]
        rfl
      · exact fromNodes_cons (restored.back context index outside)
          (back context (index + 1) outside)

/-! Rows. -/

structure RowRestored (cells : List Cell) (source : Markdown.Node) : Prop where
  made : ∀ type ∈ ["tableHeader", "tableCell"],
    Registry.standard.toNodes (rowOf type cells) = [source]
  back : ∀ (context : Context) (index : Nat), context.headingLevel = none →
    Registry.standard.fromNode context index source =
      .ok [rowOf (if index = 0 then "tableHeader" else "tableCell") (cells.map Cell.unaligned)]

theorem exists_rowRestored {cells : List Cell} (canonical : ∀ cell ∈ cells, cell.Canonical) :
    ∃ source, RowRestored cells source := by
  obtain ⟨sources, made, back⟩ := exists_cellsRestored canonical
  refine ⟨.tableRow sources, fun type isCell => ?_, fun context index outside => ?_⟩
  · have content : (rowOf type cells).content = cells.map (Cell.node type) := rfl
    rw [Registry.toNodes_eq, content, made type isCell]
    rfl
  · have converted := back (context.enter (.tableRow sources) index) 0 outside
    have type : cellType (context.enter (.tableRow sources) index) =
        if index = 0 then "tableHeader" else "tableCell" := by
      simp [cellType, Markdown.Node.kind]
    rw [fromNode_standard converted rfl, type]
    simp only [rowOf, List.map_map]
    rfl

theorem exists_rowsRestored {rows : List (List Cell)}
    (canonical : ∀ row ∈ rows, ∀ cell ∈ row, cell.Canonical) :
    ∃ sources, Registry.standard.contentToMarkdown (rows.map (rowOf "tableCell")) = sources ∧
      ∀ (context : Context) (index : Nat), context.headingLevel = none →
        Registry.standard.fromNodes context (index + 1) sources =
          .ok (rows.map fun row => rowOf "tableCell" (row.map Cell.unaligned)) := by
  induction rows with
  | nil => exact ⟨[], contentToMarkdown_nil, fun _ _ _ => rfl⟩
  | cons row rest induction =>
      obtain ⟨source, restored⟩ := exists_rowRestored (canonical row (by simp))
      obtain ⟨sources, made, back⟩ :=
        induction fun other member => canonical other (List.mem_cons_of_mem _ member)
      refine ⟨source :: sources, ?_, fun context index outside => ?_⟩
      · rw [List.map_cons, contentToMarkdown_cons rfl, restored.made "tableCell" (by simp), made]
        rfl
      · exact fromNodes_cons (restored.back context (index + 1) outside)
          (back context (index + 1) outside)

/-! Alignments. -/

theorem alignCell_unaligned (align : Option Markdown.Align) (type : String) (cell : Cell) :
    alignCell align (cell.unaligned.node type) = ({ cell with align } : Cell).node type := by
  rcases align with - | - | - | - <;> rfl

theorem alignRow_unaligned {align : List (Option Markdown.Align)} {cells : List Cell}
    (aligned : ∀ (column : Nat) (cell : Cell), cells[column]? = some cell →
      cell.align = align[column]?.getD none) (type : String) :
    alignRow align (rowOf type (cells.map Cell.unaligned)) = rowOf type cells := by
  have content : (rowOf type (cells.map Cell.unaligned)).content.mapIdx
      (fun column cell => alignCell (align[column]?.getD none) cell) =
        cells.map (Cell.node type) := by
    apply List.ext_getElem?
    intro column
    cases found : cells[column]? with
    | none => simp [rowOf, Document.Node.plain, found]
    | some cell =>
        have equality := aligned column cell found
        simp only [rowOf, Document.Node.plain, List.getElem?_mapIdx, List.getElem?_map, found,
          Option.map_some, alignCell_unaligned, ← equality]
  exact congrArg (Document.Node.plain "tableRow") content

theorem map_alignRow_unaligned {header : List Cell} {rows : List (List Cell)}
    (aligned : ∀ row ∈ rows, ∀ (column : Nat) (cell : Cell), row[column]? = some cell →
      cell.align = header[column]?.bind Cell.align) :
    (rowOf "tableHeader" (header.map Cell.unaligned) ::
        rows.map fun row => rowOf "tableCell" (row.map Cell.unaligned)).map
        (alignRow (header.map Cell.align)) =
      rowOf "tableHeader" header :: rows.map (rowOf "tableCell") := by
  have each : ∀ row ∈ header :: rows, ∀ (column : Nat) (cell : Cell),
      row[column]? = some cell → cell.align = (header.map Cell.align)[column]?.getD none := by
    intro row member column cell found
    rcases List.mem_cons.1 member with rfl | inRows
    · simp [found]
    · rw [aligned row inRows column cell found]
      cases known : header[column]? <;> simp [known]
  rw [List.map_cons, alignRow_unaligned (each header (by simp)), List.map_map]
  congr 1
  apply List.map_congr_left
  intro row member
  exact alignRow_unaligned (each row (List.mem_cons_of_mem _ member)) _

theorem columnAligns_table (header : List Cell) (rows : List Document.Node) :
    columnAligns (.plain "table" (rowOf "tableHeader" header :: rows)) = header.map Cell.align := by
  simp only [columnAligns, Document.Node.plain, rowOf, List.map_map]
  apply List.map_congr_left
  intro cell _
  obtain ⟨align, lines⟩ := cell
  rcases align with - | - | - | - <;> rfl

/-! Tables. -/

theorem restored_emptyTable : Restored (.plain "table" []) (.table [] []) :=
  allRestored_nil.restored rfl rfl rfl rfl rfl rfl rfl fun _ => rfl

theorem exists_restored_table {header : List Cell} {rows : List (List Cell)}
    (headers : ∀ cell ∈ header, cell.Canonical)
    (cells : ∀ row ∈ rows, ∀ cell ∈ row, cell.Canonical)
    (aligned : ∀ row ∈ rows, ∀ (column : Nat) (cell : Cell), row[column]? = some cell →
      cell.align = header[column]?.bind Cell.align) :
    ∃ source, Restored
      (.plain "table" (rowOf "tableHeader" header :: rows.map (rowOf "tableCell"))) source := by
  obtain ⟨first, restored⟩ := exists_rowRestored headers
  obtain ⟨sources, made, back⟩ := exists_rowsRestored cells
  have made : Registry.standard.toNodes
      (.plain "table" (rowOf "tableHeader" header :: rows.map (rowOf "tableCell"))) =
        [.table (header.map Cell.align) (first :: sources)] := by
    have content : Registry.standard.contentToMarkdown
        (rowOf "tableHeader" header :: rows.map (rowOf "tableCell")) = first :: sources := by
      rw [contentToMarkdown_cons rfl, restored.made "tableHeader" (by simp), made]
      rfl
    rw [Registry.toNodes_eq, ← columnAligns_table header (rows.map (rowOf "tableCell")), ← content]
    rfl
  refine ⟨.table (header.map Cell.align) (first :: sources), restored_of_hooks made rfl rfl rfl rfl
    (fun context outside => fromNodes_cons (restored.back context 0 outside)
      (back context 0 outside)) fun context => ?_⟩
  simp only [tableFromMarkdown, if_true, List.cons_append, List.nil_append,
    map_alignRow_unaligned aligned]
  rfl

end EditorMarkdown.Conversion
