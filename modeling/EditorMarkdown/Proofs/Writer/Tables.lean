import EditorMarkdown.Proofs.Markdown.Rows
import EditorMarkdown.Proofs.Writer.Cells
import Mathlib.Data.List.Forall2

/-!
The lines of a table. A row is a line that readers cut into the cells that were written, if these
fit: text and code do, links and images do just if their strings do.
-/

namespace EditorMarkdown.Writer

open Markdown (Align IsDelimiterRow Node alignOf isDelimiterCell rowCells)
open Text (bareBars barLine cutBars endsBehind joinLines splitLines)

variable {options : Options}

/-! Rows. -/

def spacedCell (text : List Char) : List Char := ' ' :: text ++ [' ']

def delimiterMark (align : Option Align) : List Char := (delimiterCell align).dropLast

theorem tableLine_eq (columns : Nat) (cells : List (List Char)) :
    tableLine columns cells =
      barLine ((List.range columns).map fun column => spacedCell (cells[column]?.getD [])) := by
  simp [tableLine, barLine, spacedCell, List.flatMap_map]

theorem delimiterLine_eq (columns : Nat) (align : List (Option Align)) :
    delimiterLine columns align = barLine ((List.range columns).map fun column =>
      delimiterMark (align[column]?.getD none)) := by
  have marked : ∀ align, delimiterCell align = delimiterMark align ++ ['|'] := by
    rintro (_ | _ | _ | _) <;> rfl
  simp [delimiterLine, barLine, List.flatMap_map, marked]

theorem endsBehind_spacedCell (text : List Char) : endsBehind false (spacedCell text) = false :=
  Text.endsBehind_concat false (' ' :: text) ' '

theorem fitsCell_spacedCell_iff (text : List Char) :
    FitsCell (spacedCell text) ↔ FitsCell text := by
  have space : FitsCell [' '] := by decide
  exact fitsCell_enclosed_iff space rfl space

theorem map_range_getD {α : Type} (cells : List (List Char)) (f : List Char → α) :
    (List.range cells.length).map (fun column => f (cells[column]?.getD [])) = cells.map f := by
  apply List.ext_getElem
  · simp
  · intro column inRange _
    simp at inRange
    simp [inRange]

theorem fits_tableLine_iff (cells : List (List Char)) :
    ('\n' ∉ tableLine cells.length cells ∧
        bareBars false (tableLine cells.length cells) = cells.length + 1) ↔
      ∀ cell ∈ cells, FitsCell cell := by
  have solid : ∀ cell ∈ cells.map spacedCell, endsBehind false cell = false := by
    simp [endsBehind_spacedCell]
  have fits : ∀ cell, FitsCell cell ↔
      '\n' ∉ spacedCell cell ∧ bareBars false (spacedCell cell) = 0 := fun cell =>
    (fitsCell_spacedCell_iff cell).symm.trans
      ⟨fun fits => ⟨fits.single, fits.barless⟩, fun both => ⟨both.1, both.2⟩⟩
  rw [tableLine_eq, map_range_getD, Text.mem_barLine (by decide), Text.bareBars_barLine solid]
  simp only [fits, List.length_map]
  rw [forall₂_and]
  refine and_congr (by simp) ?_
  have count : ∀ bars, bars + cells.length + 1 = cells.length + 1 ↔ bars = 0 := by omega
  rw [count, Text.bareBars_flatten_eq_zero_iff solid, List.forall_mem_map]

def cellText (options : Options) (scope : Scope) (content : List Node) : List Char :=
  (writeNode options scope false (.tableCell content) .empty).text

theorem cellTexts_map (options : Options) (scope : Scope) (row : List (List Node)) :
    cellTexts options scope (row.map .tableCell) = row.map (cellText options scope) := by
  induction row with
  | nil => simp [cellTexts]
  | cons content row induction => simp [cellTexts, Node.kind, induction, cellText]

theorem rowTexts_map (options : Options) (scope : Scope) (rows : List (List (List Node))) :
    rowTexts options scope (rows.map fun row => .tableRow (row.map .tableCell)) =
      rows.map fun row => row.map (cellText options (scope.enter .tableRow)) := by
  induction rows with
  | nil => simp [rowTexts]
  | cons row rows induction => simp [rowTexts, cellTexts_map, induction]

theorem fitsCell_cellText_iff (keeps : options.KeepCells) (scope : Scope) {content : List Node}
    (inline : ∀ node ∈ content, ∀ part ∈ node.parts, part.isInline) :
    FitsCell (cellText options scope content) ↔
      ∀ node ∈ content, ∀ part ∈ node.parts, ResourceFits part := by
  have inCell : (scope.enter .tableCell).within .tableCell := by simp
  have empty : FitsCell Buffer.empty.text := by decide
  have written := fitsCell_writeInlines_iff (fun node member buffer =>
    fitsCell_writeNode_iff keeps node (inline node member) inCell buffer) .empty
  have unhandled := handled?_eq_none keeps.plain (.tableCell content) scope false nofun
  simp only [cellText, writeNode, unhandled]
  exact written.trans (and_iff_right empty)

/-- A row of a table keeps its cells just if the resources of the links and images in it fit. -/
theorem row_keeps_cells_iff (scope : Scope) {row : List (List Node)}
    (inline : ∀ content ∈ row, ∀ node ∈ content, ∀ part ∈ node.parts, part.isInline) :
    (∀ content ∈ row, FitsCell (cellText .forDocuments scope content) ↔
      ∀ node ∈ content, ∀ part ∈ node.parts, ResourceFits part) ∧
    let line := (writeNode .forDocuments scope false (.tableRow (row.map .tableCell)) .empty).text
    ('\n' ∉ line ∧ bareBars false line = row.length + 1 ↔
      ∀ content ∈ row, ∀ node ∈ content, ∀ part ∈ node.parts, ResourceFits part) := by
  have keeps := keepCells_forDocuments
  have cells : ∀ scope, ∀ content ∈ row, FitsCell (cellText .forDocuments scope content) ↔
      ∀ node ∈ content, ∀ part ∈ node.parts, ResourceFits part := fun scope content member =>
    fitsCell_cellText_iff keeps scope (inline content member)
  refine ⟨cells scope, ?_⟩
  intro line
  have written : line = tableLine row.length
      (row.map (cellText .forDocuments (scope.enter .tableRow))) := by
    have unhandled :=
      handled?_eq_none keeps.plain (.tableRow (row.map .tableCell)) scope false nofun
    simp only [line, writeNode, unhandled, cellTexts_map, Buffer.text_push, List.length_map]
    rfl
  have kept := fits_tableLine_iff (row.map (cellText .forDocuments (scope.enter .tableRow)))
  rw [List.length_map, ← written] at kept
  rw [kept, List.forall_mem_map]
  exact forall₂_congr (cells _)

def titledRow : List (List Node) :=
  [[.link "u" (some "a\\|b") [.text "c|d\ne"]], [.image "u" none "f|g"]]

theorem row_keeps_cells_iff_titled :
    (∀ content ∈ titledRow, ∀ node ∈ content, ∀ part ∈ node.parts, part.isInline) ∧
      let line :=
        (writeNode .forDocuments ⟨[]⟩ false (.tableRow (titledRow.map .tableCell)) .empty).text
      '\n' ∉ line ∧ bareBars false line = 3 := by
  have inline : ∀ content ∈ titledRow, ∀ node ∈ content, ∀ part ∈ node.parts, part.isInline := by
    decide
  exact ⟨inline, (row_keeps_cells_iff ⟨[]⟩ inline).2.2 (by decide)⟩

/-- A bar in a destination ends the cell, and so does a newline in an alternative text. -/
theorem row_loses_cells :
    ¬(∀ (url : String) (title : Option String) (value : String),
        FitsCell (cellText .forDocuments ⟨[]⟩ [.link url title [.text value]])) ∧
      ¬∀ (url : String) (title : Option String) (alt : String),
        FitsCell (cellText .forDocuments ⟨[]⟩ [.image url title alt]) := by
  constructor
  · intro fits
    have bar := fits "a|b" none "x"
    revert bar
    decide +kernel
  · intro fits
    have newline := fits "u" none "a\nb"
    revert newline
    decide +kernel

/-! Tables. -/

/-- A line that bars cut into pieces, with a bar before the first piece and behind the last. -/
structure IsRow (line : List Char) (pieces : List (List Char)) : Prop where
  single : '\n' ∉ line
  count : bareBars false line = pieces.length + 1
  cut : cutBars false line = [] :: pieces ++ [[]]

theorem isRow_barLine {pieces : List (List Char)} (fits : ∀ piece ∈ pieces, FitsCell piece)
    (solid : ∀ piece ∈ pieces, endsBehind false piece = false) : IsRow (barLine pieces) pieces := by
  have cut := Text.cutBars_barLine solid fun piece member => (fits piece member).barless
  refine ⟨?_, ?_, cut⟩
  · rw [Text.mem_barLine (by decide)]
    rintro ⟨piece, member, newline⟩
    exact (fits piece member).single newline
  · have pieceCount := Text.length_cutBars false (barLine pieces)
    rw [cut] at pieceCount
    simpa using pieceCount.symm

theorem isRow_tableLine (columns : Nat) {cells : List (List Char)}
    (fits : ∀ cell ∈ cells, FitsCell cell) :
    IsRow (tableLine columns cells)
      ((List.range columns).map fun column => spacedCell (cells[column]?.getD [])) := by
  rw [tableLine_eq]
  apply isRow_barLine
  · intro piece member
    obtain ⟨column, -, rfl⟩ := List.mem_map.1 member
    rw [fitsCell_spacedCell_iff]
    cases found : cells[column]? with
    | none => decide
    | some cell => exact fits cell (List.mem_of_getElem? found)
  · intro piece member
    obtain ⟨column, -, rfl⟩ := List.mem_map.1 member
    exact endsBehind_spacedCell _

theorem delimiterMark_fits (align : Option Align) :
    FitsCell (delimiterMark align) ∧ endsBehind false (delimiterMark align) = false ∧
      isDelimiterCell (delimiterMark align) ∧ alignOf (delimiterMark align) = align := by
  rcases align with _ | _ | _ | _ <;> decide

section

variable (columns : Nat) (align : List (Option Align))

def delimiterMarks : List (List Char) :=
  (List.range columns).map fun column => delimiterMark (align[column]?.getD none)

theorem mem_delimiterMarks {mark : List Char} (member : mark ∈ delimiterMarks columns align) :
    FitsCell mark ∧ endsBehind false mark = false ∧ isDelimiterCell mark := by
  obtain ⟨column, -, rfl⟩ := List.mem_map.1 member
  obtain ⟨fits, solid, hyphens, -⟩ := delimiterMark_fits (align[column]?.getD none)
  exact ⟨fits, solid, hyphens⟩

theorem isRow_delimiterLine :
    IsRow (delimiterLine columns align) (delimiterMarks columns align) := by
  rw [delimiterLine_eq]
  apply isRow_barLine
  · exact fun mark member => (mem_delimiterMarks columns align member).1
  · exact fun mark member => (mem_delimiterMarks columns align member).2.1

theorem isDelimiterRow_delimiterLine (filled : 1 ≤ columns) :
    IsDelimiterRow (delimiterLine columns align) ∧
      (rowCells (delimiterLine columns align)).map alignOf =
        (List.range columns).map fun column => align[column]?.getD none := by
  have anyMark : delimiterMarks columns align ≠ [] := by
    simp only [delimiterMarks, ne_eq, List.map_eq_nil_iff, List.range_eq_nil]
    omega
  have cells : rowCells (delimiterLine columns align) = delimiterMarks columns align := by
    rw [delimiterLine_eq]
    apply Markdown.rowCells_barLine anyMark
    · exact fun mark member => (mem_delimiterMarks columns align member).2.1
    · exact fun mark member => (mem_delimiterMarks columns align member).1.barless
  rw [IsDelimiterRow, cells]
  refine ⟨⟨anyMark, fun mark member => (mem_delimiterMarks columns align member).2.2⟩, ?_⟩
  simp [delimiterMarks, Function.comp_def, (delimiterMark_fits _).2.2.2]

end

def tableOf (align : List (Option Align)) (rows : List (List (List Node))) : Node :=
  .table align (rows.map fun row => .tableRow (row.map .tableCell))

def rowLine (options : Options) (scope : Scope) (columns : Nat) (row : List (List Node)) :
    List Char :=
  tableLine columns (row.map (cellText options scope))

/-- What stands between the bars of a row; for a cell that is missing there are two spaces. -/
def rowPieces (options : Options) (scope : Scope) (columns : Nat) (row : List (List Node)) :
    List (List Char) :=
  (List.range columns).map fun column =>
    spacedCell ((row[column]?.map (cellText options scope)).getD [])

theorem isRow_rowLine (keeps : options.KeepCells) (scope : Scope) (columns : Nat)
    {row : List (List Node)}
    (content : ∀ cell ∈ row, ∀ node ∈ cell, ∀ part ∈ node.parts,
      part.isInline ∧ ResourceFits part) :
    IsRow (rowLine options scope columns row) (rowPieces options scope columns row) := by
  have fits : ∀ text ∈ row.map (cellText options scope), FitsCell text := by
    intro text written
    obtain ⟨cell, member, rfl⟩ := List.mem_map.1 written
    have parts := content cell member
    rw [fitsCell_cellText_iff keeps scope fun node inCell part inNode =>
      (parts node inCell part inNode).1]
    exact fun node inCell part inNode => (parts node inCell part inNode).2
  have cut := isRow_tableLine columns fits
  simp only [List.getElem?_map] at cut
  exact cut

theorem writeNode_tableOf (plain : ∀ kind, kind ≠ .lineBreak → options.handler? kind = none)
    (scope : Scope) (align : List (Option Align)) (first : List (List Node))
    (others : List (List (List Node))) (buffer : Buffer) :
    let columns := (align.length :: (first :: others).map List.length).foldl max 1
    let line := rowLine options ((scope.enter .table).enter .tableRow) columns
    writeNode options scope false (tableOf align (first :: others)) buffer = buffer.push
      (joinLines (line first :: delimiterLine columns align :: others.map line)) := by
  intro columns line
  have unhandled := handled?_eq_none plain (tableOf align (first :: others)) scope false nofun
  have widths : columns = columnCount align ((first :: others).map fun row =>
      row.map (cellText options ((scope.enter .table).enter .tableRow))) := by
    simp [columns, columnCount, Function.comp_def]
  rw [tableOf] at unhandled ⊢
  simp only [writeNode, unhandled, rowTexts_map]
  rw [List.map_cons, tableText, ← List.map_cons, ← widths, List.map_map]
  rfl

/-- A table is written as a line for each of its rows, and one behind the first line that says how
the columns are aligned. Bars cut each line into as many columns as the widest row has, and what
stands between the bars is what the cells are written as. -/
theorem table_decodes (usual : options = .standard ∨ options = .forDocuments) (scope : Scope)
    (align : List (Option Align)) {rows : List (List (List Node))} (filled : rows ≠ [])
    (content : ∀ row ∈ rows, ∀ cell ∈ row, ∀ node ∈ cell, ∀ part ∈ node.parts,
      part.isInline ∧ ResourceFits part) :
    let columns := (align.length :: rows.map List.length).foldl max 1
    let pieces := rowPieces options ((scope.enter .table).enter .tableRow) columns
    ∃ text head delimiter body,
      (∀ buffer, writeNode options scope false (tableOf align rows) buffer = buffer.push text) ∧
        splitLines text = head :: delimiter :: body ∧
        (splitLines text).length = rows.length + 1 ∧
        (∀ line ∈ splitLines text, bareBars false line = columns + 1) ∧
        List.Forall₂ (fun row line => IsRow line (pieces row)) rows (head :: body) ∧
        IsDelimiterRow delimiter ∧
        (rowCells delimiter).map alignOf =
          (List.range columns).map fun column => align[column]?.getD none := by
  intro columns pieces
  have keeps : options.KeepCells := by
    rcases usual with rfl | rfl
    · exact keepCells_standard
    · exact keepCells_forDocuments
  obtain ⟨first, others, rfl⟩ := List.exists_cons_of_ne_nil filled
  let line := rowLine options ((scope.enter .table).enter .tableRow) columns
  have isRow : ∀ row ∈ first :: others, IsRow (line row) (pieces row) := fun row member =>
    isRow_rowLine keeps _ columns (content row member)
  have delimits := isRow_delimiterLine columns align
  have bars : ∀ text ∈ line first :: delimiterLine columns align :: others.map line,
      '\n' ∉ text ∧ bareBars false text = columns + 1 := by
    have ofRow : ∀ row ∈ first :: others,
        '\n' ∉ line row ∧ bareBars false (line row) = columns + 1 := fun row member =>
      ⟨(isRow row member).single, (isRow row member).count.trans (by simp [pieces, rowPieces])⟩
    rw [List.forall_mem_cons, List.forall_mem_cons, List.forall_mem_map]
    refine ⟨ofRow first List.mem_cons_self, ⟨delimits.single, ?_⟩, ?_⟩
    · exact delimits.count.trans (by simp [delimiterMarks])
    · exact fun row member => ofRow row (List.mem_cons_of_mem _ member)
  have lines := Text.splitLines_joinLines (by simp) fun text member => (bars text member).1
  refine ⟨_, line first, delimiterLine columns align, others.map line,
    writeNode_tableOf keeps.plain scope align first others, lines, ?_, ?_, ?_,
    isDelimiterRow_delimiterLine columns align (le_foldl_max _ 1)⟩
  · exact (congrArg List.length lines).trans (by simp)
  · rw [lines]
    exact fun text member => (bars text member).2
  · rw [← List.map_cons, List.forall₂_map_right_iff, List.forall₂_same]
    exact isRow

def unevenTable : List (List (List Node)) :=
  [[[.text "a|b\\|\nc", .lineBreak], [.inlineCode "|\n\\|", .delete [.text "d"]]],
    [], [[.emphasis [.strong [.text "|"]]], [], [.link "u" none [.text "e"]]]]

theorem table_decodes_uneven :
    unevenTable ≠ [] ∧
      (∀ row ∈ unevenTable, ∀ cell ∈ row, ∀ node ∈ cell, ∀ part ∈ node.parts,
        part.isInline ∧ ResourceFits part) ∧
      let text := (writeNode .forDocuments ⟨[]⟩ false (tableOf [some .left, none] unevenTable)
        .empty).text
      (splitLines text).length = 4 ∧ ∀ line ∈ splitLines text, bareBars false line = 4 := by
  have filled : unevenTable ≠ [] := by decide
  have content : ∀ row ∈ unevenTable, ∀ cell ∈ row, ∀ node ∈ cell, ∀ part ∈ node.parts,
      part.isInline ∧ ResourceFits part := by
    decide
  obtain ⟨text, head, delimiter, body, written, -, count, bars, -⟩ :=
    table_decodes (.inr rfl) ⟨[]⟩ [some .left, none] filled content
  refine ⟨filled, content, ?_⟩
  rw [written, Buffer.text_push]
  exact ⟨count, bars⟩

end EditorMarkdown.Writer
