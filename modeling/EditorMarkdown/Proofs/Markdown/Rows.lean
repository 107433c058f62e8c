import EditorMarkdown.Markdown.Kind
import EditorMarkdown.Proofs.Text.Bars
import EditorMarkdown.Proofs.Text.Lines
import Mathlib.Data.List.TakeWhile

/-!
Rows of tables as readers see them. Bars cut a row into cells, and the row below the first one holds
hyphens only, with colons that say how the columns are aligned.
-/

namespace EditorMarkdown.Markdown

open Text (bareBars barLine cutBars endsBehind isBlank trimEndWhile trimWhile)

def stripEnds {α : Type} [DecidableEq α] (element : α) (list : List α) : List α :=
  let behind := if list.head? = some element then list.tail else list
  if behind.getLast? = some element then behind.dropLast else behind

/-- The cells of a row. A bar at an end of the row stands between no two cells. -/
def rowCells (line : List Char) : List (List Char) :=
  stripEnds [] (cutBars false (trimWhile isBlank line))

/-- Whether a cell holds hyphens, with a colon before or behind them or not. -/
def isDelimiterCell (cell : List Char) : Bool :=
  let hyphens := stripEnds ':' (trimWhile isBlank cell)
  !hyphens.isEmpty && hyphens.all (· = '-')

/-- Whether a line makes a table of itself and a line with as many cells before it. -/
def IsDelimiterRow (line : List Char) : Prop :=
  rowCells line ≠ [] ∧ ∀ cell ∈ rowCells line, isDelimiterCell cell

instance (line : List Char) : Decidable (IsDelimiterRow line) :=
  inferInstanceAs (Decidable (_ ∧ _))

def alignOf (cell : List Char) : Option Align :=
  let cell := trimWhile isBlank cell
  match decide (cell.head? = some ':'), decide (cell.getLast? = some ':') with
  | true, true => some .center
  | true, false => some .left
  | false, true => some .right
  | false, false => none

theorem stripEnds_enclosed {α : Type} [DecidableEq α] (element : α) (list : List α) :
    stripEnds element (element :: list ++ [element]) = list := by
  simp [stripEnds]

theorem mem_stripEnds {α : Type} [DecidableEq α] {element other : α} {list : List α}
    (apart : other ≠ element) (member : other ∈ list) : other ∈ stripEnds element list := by
  have behind : other ∈ if list.head? = some element then list.tail else list := by
    split
    · next first =>
        obtain ⟨rest, rfl⟩ := List.head?_eq_some_iff.1 first
        exact (List.mem_cons.1 member).resolve_left apart
    · exact member
  unfold stripEnds
  generalize (if list.head? = some element then list.tail else list) = rest at behind
  dsimp only
  split
  · next last =>
      obtain ⟨inner, whole⟩ := List.getLast?_eq_some_iff.1 last
      rw [whole] at behind ⊢
      rw [List.dropLast_concat]
      simpa [apart] using behind
  · exact behind

theorem mem_trimWhile {drop : Char → Bool} {text : List Char} {c : Char} (kept : drop c = false)
    (member : c ∈ text) : c ∈ trimWhile drop text := by
  have dropped : ∀ {text : List Char}, c ∈ text → c ∈ text.dropWhile drop := by
    intro text member
    rw [← List.takeWhile_append_dropWhile (p := drop) (l := text), List.mem_append] at member
    refine member.resolve_left fun inRun => ?_
    simp [List.mem_takeWhile_imp inRun] at kept
  rw [trimWhile, trimEndWhile, List.mem_reverse]
  exact dropped (List.mem_reverse.2 (dropped member))

theorem IsDelimiterRow.mem {line : List Char} {c : Char} (delimits : IsDelimiterRow line)
    (member : c ∈ line) : c = '|' ∨ c = '-' ∨ c = ':' ∨ isBlank c := by
  by_cases blank : isBlank c
  · exact .inr (.inr (.inr blank))
  have solid := eq_false_of_ne_true blank
  rcases Text.mem_cutBars false (mem_trimWhile solid member) with bar | ⟨cell, inLine, inCell⟩
  · exact .inl bar
  · have filled : cell ≠ [] := List.ne_nil_of_mem inCell
    have hyphens := delimits.2 cell (mem_stripEnds filled inLine)
    rw [isDelimiterCell, Bool.and_eq_true] at hyphens
    by_cases colon : c = ':'
    · exact .inr (.inr (.inl colon))
    · have inHyphens := mem_stripEnds colon (mem_trimWhile solid inCell)
      have hyphen := List.all_eq_true.1 hyphens.2 c inHyphens
      exact .inr (.inl (of_decide_eq_true hyphen))

theorem rowCells_barLine {cells : List (List Char)} (filled : cells ≠ [])
    (solid : ∀ cell ∈ cells, endsBehind false cell = false)
    (barless : ∀ cell ∈ cells, bareBars false cell = 0) : rowCells (barLine cells) = cells := by
  have starts : ∀ c ∈ (barLine cells).head?, isBlank c = false := by
    rintro c ⟨⟩
    rfl
  have ends : ∀ c ∈ (barLine cells).getLast?, isBlank c = false := by
    obtain ⟨others, last, rfl⟩ := (List.eq_nil_or_concat cells).resolve_left filled
    intro c member
    obtain rfl : '|' = c := by simpa [barLine, List.getLast?_cons] using member
    rfl
  rw [rowCells, Text.trimWhile_of_ends starts ends, Text.cutBars_barLine solid barless]
  exact stripEnds_enclosed [] cells

end EditorMarkdown.Markdown
