import EditorMarkdown.Markdown.Kind
import EditorMarkdown.Writer.Escape

/-!
The parts of written markdown that do not depend on what is around them: code, link resources,
table rows and list markers.
-/

namespace EditorMarkdown.Writer

open Markdown (Align)

/-- The length of the longest run of backticks, the run at the start having `run` more. -/
private def longestRunFrom (run : Nat) : List Char → Nat
  | [] => run
  | c :: rest => if c = '`' then longestRunFrom (run + 1) rest else max run (longestRunFrom 0 rest)

def longestBacktickRun (text : List Char) : Nat := longestRunFrom 0 text

private theorem longestRunFrom_le {run longer : Nat} (le : run ≤ longer) (text : List Char) :
    run ≤ longestRunFrom longer text ∧ longestRunFrom run text ≤ longestRunFrom longer text := by
  induction text generalizing run longer with
  | nil => exact ⟨le, le⟩
  | cons c rest induction =>
      simp only [longestRunFrom]
      split
      · have longerRest := induction (Nat.add_le_add_right le 1)
        omega
      · omega

private theorem add_le_longestRunFrom (n : Nat) (rest : List Char) (run : Nat) :
    run + n ≤ longestRunFrom run (List.replicate n '`' ++ rest) := by
  induction n generalizing run with
  | zero => exact (longestRunFrom_le (Nat.le_refl run) rest).1
  | succ n induction =>
      have longer := induction (run + 1)
      rw [List.replicate_succ, List.cons_append, longestRunFrom, if_pos rfl]
      omega

private theorem longestRunFrom_append (before rest : List Char) (run : Nat) :
    longestRunFrom 0 rest ≤ longestRunFrom run (before ++ rest) := by
  induction before generalizing run with
  | nil => exact (longestRunFrom_le (Nat.zero_le run) rest).2
  | cons c before induction =>
      rw [List.cons_append, longestRunFrom]
      split
      · exact induction (run + 1)
      · exact Nat.le_trans (induction 0) (Nat.le_max_right _ _)

theorem le_longestBacktickRun {n : Nat} {text : List Char}
    (inside : List.replicate n '`' <:+: text) : n ≤ longestBacktickRun text := by
  obtain ⟨before, after, rfl⟩ := inside
  have run := add_le_longestRunFrom n after 0
  have whole := longestRunFrom_append before (List.replicate n '`' ++ after) 0
  rw [List.append_assoc]
  simp only [longestBacktickRun]
  omega

/-- Backticks that do not occur in a text, and at least three of them. -/
def codeFence (value : List Char) : List Char :=
  List.replicate (max 3 (longestBacktickRun value + 1)) '`'

def codeInfo (lang detail : Option String) : List Char :=
  match lang, detail with
  | none, _ => []
  | some lang, none => lang.toList
  | some lang, some detail => lang.toList ++ ' ' :: detail.toList

def codeBlock (lang detail : Option String) (value : String) : List Char :=
  let value := value.toList
  let fence := codeFence value
  let finish := if value.isEmpty || value.getLast? = some '\n' then [] else ['\n']
  fence ++ codeInfo lang detail ++ '\n' :: value ++ finish ++ fence

def codeLine (inCell : Bool) (value : String) : List Char :=
  let line := value.toList.map fun c => if c = '\n' then ' ' else c
  if inCell then line.flatMap fun c => if c = '|' then ['\\', c] else [c] else line

/-- Whether inline code takes a space at each end, because its ends are backticks or spaces that
would be stripped. -/
def isPadded (line : List Char) : Bool :=
  line.head? = some '`' || line.getLast? = some '`' ||
    (line.head? = some ' ' && line.getLast? = some ' ' && !line.all Text.isWhite)

def codeSpan (inCell : Bool) (value : String) : List Char :=
  let line := codeLine inCell value
  let fence := List.replicate (longestBacktickRun line + 1) '`'
  let padding := if isPadded line then [' '] else []
  fence ++ padding ++ line ++ padding ++ fence

def destination (url : String) : List Char :=
  let url := escapeReferences url.toList
  if url.any fun c => Text.isWhite c || c = '(' || c = ')' then
    '<' :: (url.flatMap fun c =>
      if c = '<' then ['%', '3', 'C'] else if c = '>' then ['%', '3', 'E'] else [c]) ++ ['>']
  else url

def title (title : Option String) : List Char :=
  match title with
  | none => []
  | some title =>
      let quoted := title.toList.flatMap fun c => if c = '\\' || c = '"' then ['\\', c] else [c]
      ' ' :: '"' :: escapeReferences quoted ++ ['"']

def linkTail (url : String) (linkTitle : Option String) : List Char :=
  ']' :: '(' :: destination url ++ title linkTitle ++ [')']

def imageText (inCell : Bool) (url : String) (imageTitle : Option String) (alt : String) :
    List Char :=
  '!' :: '[' :: escapeText false inCell alt.toList ++ linkTail url imageTitle

/-- A row of a table with `columns` cells; missing ones are empty. -/
def tableLine (columns : Nat) (cells : List (List Char)) : List Char :=
  '|' :: (List.range columns).flatMap fun column =>
    ' ' :: (cells[column]?.getD []) ++ [' ', '|']

def delimiterCell : Option Align → List Char
  | some .left => [':', '-', '-', '-', '|']
  | some .center => [':', '-', '-', ':', '|']
  | some .right => ['-', '-', '-', ':', '|']
  | none => ['-', '-', '-', '-', '|']

def delimiterLine (columns : Nat) (align : List (Option Align)) : List Char :=
  '|' :: (List.range columns).flatMap fun column => delimiterCell (align[column]?.getD none)

def columnCount (align : List (Option Align)) (rows : List (List (List Char))) : Nat :=
  (rows.map List.length).foldl max (max 1 align.length)

theorem le_foldl_max (lengths : List Nat) (least : Nat) : least ≤ lengths.foldl max least := by
  induction lengths generalizing least with
  | nil => exact Nat.le_refl least
  | cons length lengths induction =>
      exact Nat.le_trans (Nat.le_max_left least length) (induction _)

theorem length_le_columnCount (align : List (Option Align)) {rows : List (List (List Char))}
    {row : List (List Char)} (member : row ∈ rows) : row.length ≤ columnCount align rows := by
  obtain ⟨before, after, rfl⟩ := List.append_of_mem member
  rw [columnCount, List.map_append, List.map_cons, List.foldl_append, List.foldl_cons]
  exact Nat.le_trans (Nat.le_max_right _ _) (le_foldl_max _ _)

def tableText (align : List (Option Align)) : List (List (List Char)) → List Char
  | [] => []
  | head :: rows =>
      let columns := columnCount align (head :: rows)
      Text.joinLines
        (tableLine columns head :: delimiterLine columns align :: rows.map (tableLine columns))

def orderedMarker (alternate : Bool) (number : UInt32) : List Char :=
  (toString number.toNat).toList ++ [if alternate then ')' else '.', ' ']

def taskBox : Option Bool → List Char
  | none => []
  | some true => ['[', 'x', ']', ' ']
  | some false => ['[', ' ', ']', ' ']

/-- How far the lines after the first of an item are indented: as many columns as its marker takes
in UTF-8. -/
def markerWidth (marker : List Char) : Nat := (String.ofList marker).utf8ByteSize

def itemText (marker : List Char) (checked : Option Bool) (body : List Char) : List Char :=
  marker ++ taskBox checked ++
    Text.indentLines (List.replicate (markerWidth marker) ' ') body

def quoteText (body : List Char) : List Char := Text.prefixLines ['>', ' '] ['>'] body

/-- A metadata block among other blocks. -/
def metadataText (value : String) : List Char :=
  ['-', '-', '-', '\n'] ++ value.toList ++ ['\n', '-', '-', '-']

/-- A block of front matter; none if it holds nothing but newlines. -/
def frontMatterText (value : String) : List Char :=
  let value := Text.trimEndWhile (· = '\n') value.toList
  if value.isEmpty then []
  else ['-', '-', '-', '\n'] ++ value ++ ['\n', '-', '-', '-', '\n', '\n']

end EditorMarkdown.Writer
