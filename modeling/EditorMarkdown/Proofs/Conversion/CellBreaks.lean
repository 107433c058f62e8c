import EditorMarkdown.Proofs.Conversion.Tables
import EditorMarkdown.Proofs.Writer.Tables

/-!
Breaks in the cells of tables. A cell becomes paragraphs, one for each piece of its line between
breaks, and the paragraphs are put in one line again with breaks between them. An empty paragraph
leaves nothing in that line, so of the breaks those stay that part two texts.
-/

namespace EditorMarkdown.Conversion

open Markdown (Align)
open Writer (tableOf)

variable {context : Context} {node : Markdown.Node} {cell nodes : List Markdown.Node}
variable {row : List (List Markdown.Node)} {rows : List (List (List Markdown.Node))}
variable {align : List (Option Align)}

/-! Cells of texts and breaks. -/

inductive CellPart : Markdown.Node → Prop
  | text {value : String} (filled : value ≠ "") : CellPart (.text value)
  | lineBreak : CellPart .lineBreak

instance : DecidablePred CellPart := fun node =>
  match node with
  | .text value => decidable_of_iff (value ≠ "") ⟨.text, fun | .text filled => filled⟩
  | .lineBreak => .isTrue .lineBreak
  | .root _ | .heading _ _ | .paragraph _ | .thematicBreak | .blockquote _ | .callout _ _
  | .list _ _ _ _ | .listItem _ _ _ | .code _ _ _ | .table _ _ | .tableRow _ | .tableCell _
  | .html _ | .yaml _ | .emphasis _ | .strong _ | .delete _ | .inlineCode _ | .link _ _ _
  | .image _ _ _ => .isFalse nofun

/-- The breaks of a cell that have a text right behind them and another one somewhere before them,
with all texts; `begun` tells whether a text stands before the nodes. -/
def keptBreaks (begun : Bool) : List Markdown.Node → List Markdown.Node
  | [] => []
  | node :: rest =>
      if node.kind = .lineBreak then
        if begun && rest.head?.any fun next => next.kind ≠ .lineBreak then
          node :: keptBreaks true rest
        else keptBreaks begun rest
      else node :: keptBreaks true rest

/-- Whether each break of a cell has a text right before it and one right behind it. -/
structure BreaksPartTexts (cell : List Markdown.Node) : Prop where
  starts : ∀ node ∈ cell.head?, node.kind ≠ .lineBreak
  ends : ∀ node ∈ cell.getLast?, node.kind ≠ .lineBreak
  apart : cell.IsChain fun first second => ¬(first.kind = .lineBreak ∧ second.kind = .lineBreak)

theorem length_keptBreaks_le (begun : Bool) (nodes : List Markdown.Node) :
    (keptBreaks begun nodes).length ≤ nodes.length := by
  induction nodes generalizing begun with
  | nil => exact Nat.le_refl 0
  | cons node rest induction =>
      have begunRest := induction true
      have others := induction begun
      simp only [keptBreaks]
      split
      · split
        · simp only [List.length_cons]
          omega
        · simp only [List.length_cons]
          omega
      · simp only [List.length_cons]
        omega

theorem keptBreaks_eq_self_iff (begun : Bool) (nodes : List Markdown.Node) :
    keptBreaks begun nodes = nodes ↔
      (begun ∨ ∀ node ∈ nodes.head?, node.kind ≠ .lineBreak) ∧
        (∀ node ∈ nodes.getLast?, node.kind ≠ .lineBreak) ∧
        nodes.IsChain fun first second =>
          ¬(first.kind = .lineBreak ∧ second.kind = .lineBreak) := by
  induction nodes generalizing begun with
  | nil => simp [keptBreaks]
  | cons node rest induction =>
      by_cases isBreak : node.kind = .lineBreak
      · cases rest with
        | nil => simp [keptBreaks, isBreak]
        | cons next others =>
            by_cases parts : begun ∧ next.kind ≠ .lineBreak
            · have kept : keptBreaks begun (node :: next :: others) =
                  node :: keptBreaks true (next :: others) := by
                simp [keptBreaks, isBreak, parts]
              rw [kept, List.cons_inj_right, induction true]
              simp [isBreak, parts]
            · -- the break is dropped, and nothing comes in its place
              have shorter := length_keptBreaks_le begun (next :: others)
              refine iff_of_false (fun same => ?_) ?_
              · have dropped : keptBreaks begun (node :: next :: others) =
                    keptBreaks begun (next :: others) := by
                  simp [keptBreaks, isBreak, parts]
                rw [dropped] at same
                rw [same, List.length_cons] at shorter
                omega
              · rintro ⟨first, -, chain⟩
                have begun : begun = true := by simpa [isBreak] using first
                have apart := (List.isChain_cons.1 chain).1 next rfl
                exact parts ⟨begun, fun isNext => apart ⟨isBreak, isNext⟩⟩
      · simp only [keptBreaks, isBreak, if_false, List.cons.injEq, true_and, induction true]
        cases rest with
        | nil => simp [isBreak]
        | cons next others => simp [isBreak]

/-- A cell keeps all its breaks if each of them parts two texts. -/
theorem keptBreaks_eq_iff : keptBreaks false cell = cell ↔ BreaksPartTexts cell := by
  rw [keptBreaks_eq_self_iff]
  constructor
  · intro ⟨starts, ends, apart⟩
    exact ⟨by simpa using starts, ends, apart⟩
  · intro parts
    exact ⟨.inr parts.starts, parts.ends, parts.apart⟩

/-! From markdown. -/

def partOf : Markdown.Node → Document.Node
  | .text value => .ofText value []
  | _ => .plain "hardBreak" []

theorem CellPart.form (part : CellPart node) : LeafForm (partOf node) node := by
  cases part with
  | text filled => exact .text filled
  | lineBreak => exact .hardBreak

theorem grouped_parts (parts : ∀ node ∈ nodes, CellPart node) :
    Grouped (nodes.map partOf) nodes := by
  induction nodes with
  | nil => exact .nil
  | cons node rest induction =>
      refine .leaf (parts node (by simp)).form (induction fun other member => ?_)
      exact parts other (List.mem_cons_of_mem _ member)

def cellOf (align : Option Align) (cell : List Markdown.Node) : Cell :=
  ⟨align, splitBreaks (cell.map partOf)⟩

theorem fromNode_cell (parts : ∀ node ∈ cell, CellPart node) (index : Nat)
    (outside : context.headingLevel = none) :
    Registry.standard.fromNode context index (.tableCell cell) =
      .ok [(cellOf none cell).node (cellType context)] := by
  have converted : Registry.standard.fromNodes (context.enter (.tableCell cell) index) 0 cell =
      .ok (cell.map partOf) := (grouped_parts parts).fromNodes 0 (.inl outside)
  have split : splitBreaks (cell.map partOf) = (cellOf none cell).lines := rfl
  rw [fromNode_standard converted rfl]
  exact cellFromMarkdown_of_split split _

theorem fromNode_row (parts : ∀ cell ∈ row, ∀ node ∈ cell, CellPart node) (index : Nat)
    (outside : context.headingLevel = none) :
    Registry.standard.fromNode context index (.tableRow (row.map .tableCell)) =
      .ok [rowOf (if index = 0 then "tableHeader" else "tableCell") (row.map (cellOf none))] := by
  have type : cellType (context.enter (.tableRow (row.map .tableCell)) index) =
      if index = 0 then "tableHeader" else "tableCell" := by
    simp [cellType, Markdown.Node.kind]
  have inner : (context.enter (.tableRow (row.map .tableCell)) index).headingLevel = none := outside
  have converted := fromNodes_map 0 fun cell member column _ =>
    fromNode_cell (parts cell member) column inner
  rw [type] at converted
  rw [fromNode_standard converted rfl, rowOf, List.map_map]
  rfl

def alignedRow (align : List (Option Align)) (row : List (List Markdown.Node)) : List Cell :=
  row.mapIdx fun column cell => cellOf (align[column]?.getD none) cell

theorem alignRow_cells (align : List (Option Align)) (type : String)
    (row : List (List Markdown.Node)) :
    alignRow align (rowOf type (row.map (cellOf none))) = rowOf type (alignedRow align row) := by
  have bare : (alignedRow align row).map Cell.unaligned = row.map (cellOf none) := by
    apply List.ext_getElem?
    intro column
    rw [List.getElem?_map, List.getElem?_map, alignedRow, List.getElem?_mapIdx, Option.map_map]
    rfl
  rw [← bare]
  apply alignRow_unaligned
  intro column cell found
  rw [alignedRow, List.getElem?_mapIdx, Option.map_eq_some_iff] at found
  obtain ⟨source, -, rfl⟩ := found
  rfl

def alignedRows (align : List (Option Align)) :
    List (List (List Markdown.Node)) → List Document.Node
  | [] => []
  | first :: rest =>
      rowOf "tableHeader" (alignedRow align first) ::
        rest.map fun row => rowOf "tableCell" (alignedRow align row)

theorem fromNode_table (align : List (Option Align))
    (parts : ∀ row ∈ rows, ∀ cell ∈ row, ∀ node ∈ cell, CellPart node) (index : Nat)
    (outside : context.headingLevel = none) :
    Registry.standard.fromNode context index (tableOf align rows) =
      .ok [.plain "table" (alignedRows align rows)] := by
  have inner : (context.enter (tableOf align rows) index).headingLevel = none := outside
  cases rows with
  | nil => rfl
  | cons first rest =>
      have header := fromNode_row (parts first (by simp)) 0 inner
      have others : Registry.standard.fromNodes
          (context.enter (tableOf align (first :: rest)) index) 1
          (rest.map fun row => .tableRow (row.map .tableCell)) =
          .ok (rest.map fun row => rowOf "tableCell" (row.map (cellOf none))) := by
        refine fromNodes_map 1 fun row member index behind => ?_
        have read := fromNode_row (parts row (List.mem_cons_of_mem _ member)) index inner
        rwa [if_neg (Nat.ne_of_gt behind)] at read
      have converted := fromNodes_cons header others
      rw [fromNode_standard converted rfl]
      simp only [tableOf, tableFromMarkdown, if_true, List.singleton_append, List.map_cons,
        List.map_map, Function.comp_def, alignRow_cells]
      rfl

/-! To markdown. -/

def isBreak (node : Markdown.Node) : Bool := node.kind = .lineBreak

def joinPieces (pieces : List (List Markdown.Node)) : List Markdown.Node :=
  [Markdown.Node.lineBreak].intercalate pieces

def filledPieces (pieces : List (List Markdown.Node)) : List (List Markdown.Node) :=
  pieces.filter fun piece => !piece.isEmpty

theorem isBreak_iff : isBreak node ↔ node = .lineBreak := by
  cases node <;> simp [isBreak, Markdown.Node.kind]

theorem kind_ne_lineBreak (other : node ≠ .lineBreak) : node.kind ≠ .lineBreak := by
  simpa [isBreak] using mt isBreak_iff.1 other

section

variable {first : List Markdown.Node} {others : List (List Markdown.Node)}

theorem exists_splitOnP (nodes : List Markdown.Node) :
    ∃ first others, nodes.splitOnP isBreak = first :: others :=
  List.exists_cons_of_ne_nil (List.splitOnP_ne_nil isBreak nodes)

theorem splitOnP_break (rest : List Markdown.Node) :
    (Markdown.Node.lineBreak :: rest).splitOnP isBreak = [] :: rest.splitOnP isBreak := by
  rw [List.splitOnP_cons_eq_if_modifyHead, if_pos (isBreak_iff.2 rfl)]

theorem splitOnP_other (other : node ≠ .lineBreak)
    (split : nodes.splitOnP isBreak = first :: others) :
    (node :: nodes).splitOnP isBreak = (node :: first) :: others := by
  rw [List.splitOnP_cons_eq_if_modifyHead, if_neg (mt isBreak_iff.1 other), split]
  rfl

theorem subset_of_mem_splitOnP {piece : List Markdown.Node}
    (member : piece ∈ nodes.splitOnP isBreak) : piece ⊆ nodes := by
  induction nodes generalizing piece with
  | nil => simp_all
  | cons node rest induction =>
      by_cases breaks : node = .lineBreak
      · subst breaks
        rw [splitOnP_break, List.mem_cons] at member
        rcases member with rfl | inRest
        · exact List.nil_subset _
        · exact List.subset_cons_of_subset _ (induction inRest)
      · obtain ⟨next, more, found⟩ := exists_splitOnP rest
        rw [splitOnP_other breaks found, List.mem_cons] at member
        rcases member with rfl | inRest
        · exact List.cons_subset_cons _ (induction (found ▸ List.mem_cons_self))
        · apply List.subset_cons_of_subset
          exact induction (found ▸ List.mem_cons_of_mem _ inRest)

theorem isEmpty_of_splitOnP (split : nodes.splitOnP isBreak = first :: others) :
    (nodes.head?.any fun next => next.kind ≠ .lineBreak) = !first.isEmpty := by
  cases nodes with
  | nil =>
      rw [List.splitOnP_nil, List.cons.injEq] at split
      simp [← split.1]
  | cons node rest =>
      by_cases breaks : node = .lineBreak
      · subst breaks
        rw [splitOnP_break, List.cons.injEq] at split
        simp [Markdown.Node.kind, ← split.1]
      · obtain ⟨next, more, found⟩ := exists_splitOnP rest
        rw [splitOnP_other breaks found, List.cons.injEq] at split
        simp [kind_ne_lineBreak breaks, ← split.1]

theorem append_keptBreaks : ∀ {nodes first : List Markdown.Node}
    {others : List (List Markdown.Node)}, nodes.splitOnP isBreak = first :: others →
      ∀ before : List Markdown.Node, before ++ keptBreaks true nodes =
        joinPieces ((before ++ first) :: filledPieces others)
  | [], first, others, split, before => by
      rw [List.splitOnP_nil, List.cons.injEq] at split
      simp [keptBreaks, joinPieces, filledPieces, ← split.1, ← split.2]
  | node :: rest, first, others, split, before => by
      obtain ⟨next, more, found⟩ := exists_splitOnP rest
      by_cases breaks : node = .lineBreak
      · subst breaks
        rw [splitOnP_break, found, List.cons.injEq] at split
        obtain ⟨rfl, rfl⟩ := split
        have parts := isEmpty_of_splitOnP found
        cases next with
        | nil =>
            have dropped : keptBreaks true (.lineBreak :: rest) = keptBreaks true rest := by
              simp only [keptBreaks, parts]
              simp [Markdown.Node.kind]
            rw [dropped]
            exact append_keptBreaks found before
        | cons start piece =>
            have kept : keptBreaks true (.lineBreak :: rest) =
                .lineBreak :: keptBreaks true rest := by
              simp only [keptBreaks, parts]
              simp [Markdown.Node.kind]
            have behind := append_keptBreaks found []
            rw [List.nil_append, List.nil_append] at behind
            rw [kept, behind, List.append_nil]
            simp [joinPieces, filledPieces, List.intercalate_cons_cons]
      · rw [splitOnP_other breaks found, List.cons.injEq] at split
        obtain ⟨rfl, rfl⟩ := split
        have behind := append_keptBreaks found (before ++ [node])
        simpa [keptBreaks, kind_ne_lineBreak breaks] using behind

end

theorem keptBreaks_eq_joinPieces (nodes : List Markdown.Node) :
    keptBreaks false nodes = joinPieces (filledPieces (nodes.splitOnP isBreak)) := by
  induction nodes with
  | nil => rfl
  | cons node rest induction =>
      by_cases breaks : node = .lineBreak
      · subst breaks
        have dropped : keptBreaks false (.lineBreak :: rest) = keptBreaks false rest := by
          simp [keptBreaks, Markdown.Node.kind]
        rw [dropped, induction, splitOnP_break]
        rfl
      · obtain ⟨next, more, found⟩ := exists_splitOnP rest
        have behind := append_keptBreaks found [node]
        rw [splitOnP_other breaks found]
        simpa [keptBreaks, kind_ne_lineBreak breaks, filledPieces] using behind

theorem splitBreaks_parts (parts : ∀ node ∈ nodes, CellPart node) :
    splitBreaks (nodes.map partOf) = (nodes.splitOnP isBreak).map (List.map partOf) := by
  induction nodes with
  | nil => rfl
  | cons node rest induction =>
      have others := induction fun other member => parts other (List.mem_cons_of_mem _ member)
      cases parts node (by simp) with
      | @text value filled =>
          obtain ⟨next, more, found⟩ := exists_splitOnP rest
          rw [found] at others
          rw [splitOnP_other (by simp) found, List.map_cons, splitBreaks, others]
          rfl
      | lineBreak =>
          rw [splitOnP_break, List.map_cons, List.map_cons, ← others]
          rfl

theorem contentToMarkdown_parts (parts : ∀ node ∈ nodes, CellPart node) :
    Registry.standard.contentToMarkdown (nodes.map partOf) = nodes := by
  have each : ∀ node ∈ nodes,
      (partOf node).marks = [] ∧ Registry.standard.toNodes (partOf node) = [node] := by
    intro node member
    have part := parts node member
    have made := part.form.toNodes []
    cases part with
    | text _ | lineBreak => exact ⟨rfl, made⟩
  rw [contentToMarkdown_map each, List.map_id']

/-- Pieces without nodes become empty paragraphs, which have no markdown. -/
theorem contentToMarkdown_pieces {pieces : List (List Markdown.Node)}
    (parts : ∀ piece ∈ pieces, ∀ node ∈ piece, CellPart node) :
    Registry.standard.contentToMarkdown
        (pieces.map fun piece => .plain "paragraph" (piece.map partOf)) =
      (filledPieces pieces).map .paragraph := by
  induction pieces with
  | nil => exact contentToMarkdown_nil
  | cons piece rest induction =>
      have others := induction fun other member => parts other (List.mem_cons_of_mem _ member)
      have made := contentToMarkdown_parts (parts piece (by simp))
      rw [List.map_cons, contentToMarkdown_cons rfl, toNodes_paragraph, made, others]
      cases piece <;> rfl

theorem joinBlocks_paragraphs {pieces : List (List Markdown.Node)}
    (filled : ∀ piece ∈ pieces, piece ≠ []) :
    joinBlocks (pieces.map .paragraph) = joinPieces pieces := by
  suffices general : ∀ (pieces : List (List Markdown.Node)) (done : List Markdown.Node),
      (∀ piece ∈ pieces, piece ≠ []) → done ≠ [] →
      (pieces.map Markdown.Node.paragraph).foldl (fun line block =>
        (if line.isEmpty then line else line ++ [.lineBreak]) ++ inlineForm block) done =
        joinPieces (done :: pieces) by
    cases pieces with
    | nil => rfl
    | cons piece rest =>
        exact general rest piece (fun other member => filled other (List.mem_cons_of_mem _ member))
          (filled piece (by simp))
  intro pieces
  induction pieces with
  | nil =>
      intro done _ _
      simp [joinPieces]
  | cons piece rest induction =>
      intro done filled isFilled
      have others := induction (done ++ [.lineBreak] ++ piece)
        (fun other member => filled other (List.mem_cons_of_mem _ member)) (by simp)
      cases rest with
      | nil => simp [isFilled, inlineForm, joinPieces]
      | cons next more => simpa [isFilled, inlineForm, joinPieces] using others

/-- The line of a cell comes back without the breaks that part nothing. -/
theorem toNodes_cellOf (align : Option Align) (parts : ∀ node ∈ cell, CellPart node) :
    ∀ type ∈ ["tableHeader", "tableCell"],
      Registry.standard.toNodes ((cellOf align cell).node type) =
        [.tableCell (keptBreaks false cell)] := by
  have inside : ∀ piece ∈ cell.splitOnP isBreak, ∀ node ∈ piece, CellPart node :=
    fun piece member node inPiece => parts node (subset_of_mem_splitOnP member inPiece)
  have filled : ∀ piece ∈ filledPieces (cell.splitOnP isBreak), piece ≠ [] := by
    intro piece member
    simpa using (List.mem_filter.1 member).2
  have made := contentToMarkdown_pieces inside
  have lines : (cellOf align cell).lines.map (Document.Node.plain "paragraph") =
      (cell.splitOnP isBreak).map fun piece => .plain "paragraph" (piece.map partOf) := by
    rw [cellOf, splitBreaks_parts parts, List.map_map]
    rfl
  rw [keptBreaks_eq_joinPieces, ← joinBlocks_paragraphs filled]
  rw [← lines] at made
  exact toNodes_cell made

theorem toNodes_rowOf (align : List (Option Align))
    (parts : ∀ cell ∈ row, ∀ node ∈ cell, CellPart node) :
    ∀ type ∈ ["tableHeader", "tableCell"],
      Registry.standard.toNodes (rowOf type (alignedRow align row)) =
        [.tableRow ((row.map (keptBreaks false)).map .tableCell)] := by
  intro type isCell
  have made : Registry.standard.contentToMarkdown ((alignedRow align row).map (Cell.node type)) =
      (row.map (keptBreaks false)).map .tableCell := by
    have each : ∀ item ∈ row.zipIdx,
        ((cellOf (align[item.2]?.getD none) item.1).node type).marks = [] ∧
          Registry.standard.toNodes ((cellOf (align[item.2]?.getD none) item.1).node type) =
            [.tableCell (keptBreaks false item.1)] := by
      intro item member
      have inRow : item.1 ∈ row := (List.mem_zipIdx' member).2 ▸ List.getElem_mem _
      exact ⟨rfl, toNodes_cellOf _ (parts item.1 inRow) type isCell⟩
    calc
      _ = row.zipIdx.map fun item => Markdown.Node.tableCell (keptBreaks false item.1) := by
        rw [alignedRow, List.mapIdx_eq_zipIdx_map, List.map_map]
        exact contentToMarkdown_map each
      _ = (row.zipIdx.map Prod.fst).map fun cell => .tableCell (keptBreaks false cell) := by
        rw [List.map_map]
        rfl
      _ = (row.map (keptBreaks false)).map .tableCell := by
        rw [List.zipIdx_map_fst, List.map_map]
        rfl
  have content : (rowOf type (alignedRow align row)).content =
      (alignedRow align row).map (Cell.node type) := rfl
  rw [Registry.toNodes_eq, content, made]
  rfl

theorem columnAligns_alignedRows (columns : align.length = (rows.head?.getD []).length) :
    columnAligns (.plain "table" (alignedRows align rows)) = align := by
  cases rows with
  | nil => exact (List.eq_nil_of_length_eq_zero columns).symm
  | cons first rest =>
      rw [alignedRows, columnAligns_table]
      have same : first.length = align.length := columns.symm
      apply List.ext_getElem
      · simp [alignedRow, same]
      · intro column _ inAlign
        simp [alignedRow, cellOf, inAlign]

theorem contentToMarkdown_alignedRows
    (parts : ∀ row ∈ rows, ∀ cell ∈ row, ∀ node ∈ cell, CellPart node) :
    Registry.standard.contentToMarkdown (alignedRows align rows) =
      (rows.map fun row => row.map (keptBreaks false)).map fun row =>
        .tableRow (row.map .tableCell) := by
  cases rows with
  | nil => exact contentToMarkdown_nil
  | cons first rest =>
      have header := toNodes_rowOf align (parts first (by simp)) "tableHeader" (by simp)
      have others := contentToMarkdown_map fun row member => ⟨rfl,
        toNodes_rowOf align (parts row (List.mem_cons_of_mem _ member)) "tableCell" (by simp)⟩
      rw [List.map_map, alignedRows, contentToMarkdown_cons rfl, header, others]
      rfl

theorem toNodes_table (columns : align.length = (rows.head?.getD []).length)
    (parts : ∀ row ∈ rows, ∀ cell ∈ row, ∀ node ∈ cell, CellPart node) :
    Registry.standard.toNodes (.plain "table" (alignedRows align rows)) =
      [tableOf align (rows.map fun row => row.map (keptBreaks false))] := by
  have applied : ∀ nodes, Registry.standard.applyTo
      (.node (.plain "table" (alignedRows align rows))) nodes =
        [.table (columnAligns (.plain "table" (alignedRows align rows))) nodes] := fun _ => rfl
  have content : (Document.Node.plain "table" (alignedRows align rows)).content =
      alignedRows align rows := rfl
  rw [Registry.toNodes_eq, applied, columnAligns_alignedRows columns, content,
    contentToMarkdown_alignedRows parts, tableOf]

theorem toDocument_table (align : List (Option Align))
    (parts : ∀ row ∈ rows, ∀ cell ∈ row, ∀ node ∈ cell, CellPart node) :
    Registry.standard.toDocument [tableOf align rows] =
      .ok (.plain "doc" [.plain "table" (alignedRows align rows)]) := by
  apply toDocument_of_fromNodes
  exact fromNodes_cons (fromNode_table align parts 0 rfl) rfl

theorem toMarkdown_table (columns : align.length = (rows.head?.getD []).length)
    (parts : ∀ row ∈ rows, ∀ cell ∈ row, ∀ node ∈ cell, CellPart node) :
    Registry.standard.toMarkdown (.plain "doc" [.plain "table" (alignedRows align rows)]) =
      [tableOf align (rows.map fun row => row.map (keptBreaks false))] := by
  rw [toMarkdown_doc, contentToMarkdown_cons rfl, toNodes_table columns parts,
    contentToMarkdown_nil, List.append_nil]

theorem tableOf_inj {more : List (List (List Markdown.Node))} :
    tableOf align rows = tableOf align more ↔ rows = more := by
  have cells : Function.Injective fun row : List (List Markdown.Node) =>
      Markdown.Node.tableRow (row.map .tableCell) := by
    intro row other same
    have same := Markdown.Node.tableRow.inj same
    exact List.map_injective_iff.2 (fun _ _ => Markdown.Node.tableCell.inj) same
  constructor
  · intro same
    exact List.map_injective_iff.2 cells (Markdown.Node.table.inj same).2
  · intro same
    rw [same]

theorem map_eq_self_iff {α : Type} {change : α → α} {items : List α} :
    items.map change = items ↔ ∀ item ∈ items, change item = item := by
  simpa using List.map_inj_left (f := change) (g := id) (l := items)

/-- A table comes back with all its alignments, rows, cells and texts, and with the breaks of each
cell that have a text on both sides. It comes back as it was if those are all its breaks. -/
theorem toMarkdown_toDocument_cells (align : List (Option Align))
    (rows : List (List (List Markdown.Node)))
    (columns : align.length = (rows.head?.getD []).length)
    (parts : ∀ row ∈ rows, ∀ cell ∈ row, ∀ node ∈ cell, CellPart node) :
    ∃ document, Registry.standard.toDocument [tableOf align rows] = .ok document ∧
      Registry.standard.toMarkdown document =
        [tableOf align (rows.map fun row => row.map (keptBreaks false))] ∧
      (Registry.standard.toMarkdown document = [tableOf align rows] ↔
        ∀ row ∈ rows, ∀ cell ∈ row, BreaksPartTexts cell) := by
  have back := toMarkdown_table columns parts
  refine ⟨_, toDocument_table align parts, back, ?_⟩
  calc
    _ ↔ rows.map (fun row => row.map (keptBreaks false)) = rows := by
      rw [back, List.cons.injEq, tableOf_inj]
      simp
    _ ↔ ∀ row ∈ rows, ∀ cell ∈ row, keptBreaks false cell = cell := by
      simp only [map_eq_self_iff]
    _ ↔ ∀ row ∈ rows, ∀ cell ∈ row, BreaksPartTexts cell := by
      simp only [keptBreaks_eq_iff]

theorem toMarkdown_toDocument_cells_broken :
    ∃ document,
      Registry.standard.toDocument
        [tableOf [some .left, none]
          [[[.text "H", .lineBreak, .text "I"], []], [[.text "a", .text "b"]]]] = .ok document ∧
      Registry.standard.toMarkdown document =
        [tableOf [some .left, none]
          [[[.text "H", .lineBreak, .text "I"], []], [[.text "a", .text "b"]]]] := by
  obtain ⟨document, made, back, -⟩ := toMarkdown_toDocument_cells [some .left, none]
    [[[.text "H", .lineBreak, .text "I"], []], [[.text "a", .text "b"]]] rfl (by decide)
  exact ⟨document, made, back⟩

/-- A break in front of the text of a cell is lost. -/
theorem toMarkdown_toDocument_loses_break :
    (Registry.standard.toDocument [tableOf [none] [[[.lineBreak, .text "a"]]]]).map
        Registry.standard.toMarkdown = .ok [tableOf [none] [[[.text "a"]]]] ∧
      ¬∀ (align : List (Option Align)) (rows : List (List (List Markdown.Node))),
        align.length = (rows.head?.getD []).length →
        (∀ row ∈ rows, ∀ cell ∈ row, ∀ node ∈ cell, CellPart node) →
        (Registry.standard.toDocument [tableOf align rows]).map Registry.standard.toMarkdown =
          .ok [tableOf align rows] := by
  have lost : (Registry.standard.toDocument [tableOf [none] [[[.lineBreak, .text "a"]]]]).map
      Registry.standard.toMarkdown = .ok [tableOf [none] [[[.text "a"]]]] := by
    rw [toDocument_table [none] (by decide), Except.map, toMarkdown_table rfl (by decide)]
    rfl
  refine ⟨lost, fun kept => ?_⟩
  have whole := kept [none] [[[.lineBreak, .text "a"]]] rfl (by decide)
  rw [lost] at whole
  simp [tableOf] at whole

end EditorMarkdown.Conversion
