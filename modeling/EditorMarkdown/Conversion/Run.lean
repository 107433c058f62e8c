import EditorMarkdown.Document.Schema
import EditorMarkdown.Markdown.Node

/-!
Marked runs: siblings that share a mark are enclosed in one markdown node for that mark. Of the
marks of the first sibling, one that the next sibling carries too is applied first, and otherwise
its first one.
-/

namespace EditorMarkdown.Conversion

open Document (Mark)

/-- A sibling as markdown, with the marks that are not applied yet. -/
structure Piece where
  marks : List Mark
  nodes : List Markdown.Node

namespace Piece

def carries (mark : Mark) (piece : Piece) : Bool := piece.marks.any fun other => other.same mark

def without (mark : Mark) (piece : Piece) : Piece :=
  { piece with marks := piece.marks.filter fun other => !other.same mark }

/-- The mark that is applied first to a piece with the given marks, `rest` following it. -/
def chosen (first : Mark) (marks : List Mark) (rest : List Piece) : Mark :=
  ((first :: marks).find? fun mark => rest.head?.any (carries mark)).getD first

end Piece

def weight : List Piece → Nat
  | [] => 0
  | piece :: rest => piece.marks.length + 1 + weight rest

theorem Piece.length_without_le (mark : Mark) (piece : Piece) :
    (piece.without mark).marks.length ≤ piece.marks.length :=
  List.length_filter_le _ _

theorem Piece.chosen_mem (first : Mark) (marks : List Mark) (rest : List Piece) :
    chosen first marks rest ∈ first :: marks := by
  unfold chosen
  cases found : (first :: marks).find? fun mark => rest.head?.any (carries mark) with
  | none => simp
  | some mark => simpa using List.mem_of_find?_eq_some found

theorem Piece.length_without_lt {mark : Mark} {piece : Piece} (h : mark ∈ piece.marks) :
    (piece.without mark).marks.length < piece.marks.length := by
  refine Nat.lt_of_le_of_ne (length_without_le mark piece) fun equality => ?_
  have kept := List.length_filter_eq_length_iff.1 equality mark h
  simp at kept

theorem weight_takeWhile_map_le (mark : Mark) (pieces : List Piece) :
    weight ((pieces.takeWhile (Piece.carries mark)).map (Piece.without mark)) ≤
      weight pieces := by
  induction pieces with
  | nil => exact Nat.le_refl _
  | cons piece rest ih =>
      simp only [List.takeWhile_cons]
      split
      · have := piece.length_without_le mark
        simp only [List.map_cons, weight]
        omega
      · exact Nat.zero_le _

theorem weight_dropWhile_le (carried : Piece → Bool) (pieces : List Piece) :
    weight (pieces.dropWhile carried) ≤ weight pieces := by
  induction pieces with
  | nil => exact Nat.le_refl _
  | cons piece rest ih =>
      simp only [List.dropWhile_cons]
      split
      · simp only [weight]
        omega
      · exact Nat.le_refl _

/-- Markdown siblings with their marks applied; `wrap` encloses nodes in the node for a mark. -/
def markedRun (wrap : Mark → List Markdown.Node → List Markdown.Node) :
    List Piece → List Markdown.Node
  | [] => []
  | piece :: rest =>
      match _marked : piece.marks with
      | [] => piece.nodes ++ markedRun wrap rest
      | first :: others =>
          let mark := Piece.chosen first others rest
          let run := (rest.takeWhile (Piece.carries mark)).map (Piece.without mark)
          wrap mark (markedRun wrap (piece.without mark :: run)) ++
            markedRun wrap (rest.dropWhile (Piece.carries mark))
termination_by pieces => weight pieces
decreasing_by
  · simp only [weight]
    omega
  · have member : Piece.chosen first others rest ∈ piece.marks := by
      rw [_marked]
      exact Piece.chosen_mem first others rest
    have fewer := Piece.length_without_lt member
    have smaller := weight_takeWhile_map_le (Piece.chosen first others rest) rest
    simp only [weight]
    omega
  · have smaller :=
      weight_dropWhile_le (Piece.carries (Piece.chosen first others rest)) rest
    simp only [weight]
    omega

@[simp] theorem markedRun_nil (wrap : Mark → List Markdown.Node → List Markdown.Node) :
    markedRun wrap [] = [] := by
  rw [markedRun]

theorem markedRun_unmarked (wrap : Mark → List Markdown.Node → List Markdown.Node)
    (nodes : List Markdown.Node) (rest : List Piece) :
    markedRun wrap (⟨[], nodes⟩ :: rest) = nodes ++ markedRun wrap rest := by
  rw [markedRun]

theorem markedRun_marked (wrap : Mark → List Markdown.Node → List Markdown.Node)
    (first : Mark) (marks : List Mark) (nodes : List Markdown.Node) (rest : List Piece) :
    markedRun wrap (⟨first :: marks, nodes⟩ :: rest) =
      wrap (Piece.chosen first marks rest)
          (markedRun wrap
            (Piece.without (Piece.chosen first marks rest) ⟨first :: marks, nodes⟩ ::
              (rest.takeWhile (Piece.carries (Piece.chosen first marks rest))).map
                (Piece.without (Piece.chosen first marks rest)))) ++
        markedRun wrap (rest.dropWhile (Piece.carries (Piece.chosen first marks rest))) := by
  rw [markedRun]

end EditorMarkdown.Conversion
