import EditorMarkdown.Proofs.Conversion.Runs

/-!
Marked texts in markdown, code included. The texts of a line are bundled: a bundle is a run of
neighbours that share a mark and ends where the mark does, and in it the texts are bundled by their
other marks. Code has no markdown in it, so a bundle for code is the text of its run.
-/

namespace EditorMarkdown.Conversion

open Document (Mark Schema)

variable {mark : Mark} {piece head : Piece} {pieces : List Piece}

def codeMark : Mark := ⟨"code", .empty⟩

/-! Texts with marks that are not applied yet. -/

structure IsTextPiece (piece : Piece) : Prop where
  text : ∃ value, value ≠ "" ∧ piece.nodes = [.text value]
  marks : ∀ mark ∈ piece.marks, CanonicalMark mark
  ranked : standardSchema.Ranked piece.marks

namespace IsTextPiece

theorem without (isText : IsTextPiece piece) (mark : Mark) : IsTextPiece (piece.without mark) where
  text := isText.text
  marks := fun other member => isText.marks other (List.mem_filter.1 member).1
  ranked := isText.ranked.filter _

theorem without_all (isText : ∀ piece ∈ pieces, IsTextPiece piece) (mark : Mark) :
    ∀ piece ∈ pieces.map (Piece.without mark), IsTextPiece piece :=
  List.forall_mem_map.2 fun piece member => (isText piece member).without mark

theorem carries_iff (isText : IsTextPiece piece) (canonical : CanonicalMark mark) :
    piece.carries mark ↔ mark ∈ piece.marks := by
  constructor
  · intro carries
    obtain ⟨other, member, same⟩ := List.any_eq_true.1 carries
    exact (isText.marks other member).eq_of_same canonical same ▸ member
  · intro member
    exact List.any_eq_true.2 ⟨mark, member, mark.same_self⟩

theorem filled (isText : IsTextPiece piece) {value : String} (text : piece.nodes = [.text value]) :
    value ≠ "" := by
  obtain ⟨same, filled, nodes⟩ := isText.text
  rw [text, List.cons.injEq, Markdown.Node.text.injEq] at nodes
  rw [nodes.1]
  exact filled

theorem plainTexts_ne (isText : IsTextPiece piece) (others : List Piece) :
    Markdown.plainTexts ((piece :: others).flatMap Piece.nodes) ≠ "" := by
  obtain ⟨value, filled, text⟩ := isText.text
  rw [List.flatMap_cons, text, Markdown.plainTexts_append, Markdown.plainTexts_text]
  simp [filled]

end IsTextPiece

/-! Bundles. -/

/-- What a canonical mark makes of the markdown of what carries it. -/
inductive Makes : Mark → List Markdown.Node → Markdown.Node → Prop
  | outer {mark : Mark} {outer : List Markdown.Node → Markdown.Node}
      (encloses : Encloses mark outer) (inner : List Markdown.Node) :
      Makes mark inner (outer inner)
  | code (inner : List Markdown.Node) :
      Makes codeMark inner (.inlineCode (Markdown.plainTexts inner))

/-- The mark that is applied first to a piece: one that the next piece shares, if there is any, and
of several the one of the lowest rank. -/
structure AppliedFirst (mark : Mark) (head : Piece) (next : Option Piece) : Prop where
  carried : mark ∈ head.marks
  shared : ∀ other ∈ head.marks, (∃ piece ∈ next, other ∈ piece.marks) →
    ∃ piece ∈ next, mark ∈ piece.marks
  lowest : ∀ other ∈ head.marks, standardSchema.rank other.type < standardSchema.rank mark.type →
    ∃ piece ∈ next, mark ∈ piece.marks ∧ other ∉ piece.marks

inductive Bundled : List Piece → List Markdown.Node → Prop
  | nil : Bundled [] []
  | text {piece : Piece} {rest : List Piece} {value : String} {nodes : List Markdown.Node}
      (unmarked : piece.marks = []) (text : piece.nodes = [.text value])
      (behind : Bundled rest nodes) : Bundled (piece :: rest) (.text value :: nodes)
  | marked {mark : Mark} {head : Piece} {others rest : List Piece} {inner : List Markdown.Node}
      {made : Markdown.Node} {nodes : List Markdown.Node}
      (first : AppliedFirst mark head (others ++ rest).head?)
      (carried : ∀ piece ∈ others, mark ∈ piece.marks)
      (ends : ∀ piece ∈ rest.head?, mark ∉ piece.marks) (makes : Makes mark inner made)
      (inside : Bundled ((head :: others).map (Piece.without mark)) inner)
      (behind : Bundled rest nodes) : Bundled (head :: (others ++ rest)) (made :: nodes)

theorem Bundled.ne_nil {nodes : List Markdown.Node} (bundled : Bundled (piece :: pieces) nodes) :
    nodes ≠ [] := by
  cases bundled with
  | text _ _ _ | marked _ _ _ _ _ _ => exact List.cons_ne_nil _ _

theorem Makes.plainText {inner : List Markdown.Node} {made : Markdown.Node}
    (makes : Makes mark inner made) : made.plainText = Markdown.plainTexts inner := by
  cases makes with
  | outer encloses _ => cases encloses <;> rfl
  | code _ => rfl

theorem Bundled.plainTexts {nodes : List Markdown.Node} (bundled : Bundled pieces nodes) :
    Markdown.plainTexts nodes = Markdown.plainTexts (pieces.flatMap Piece.nodes) := by
  induction bundled with
  | nil => rfl
  | text _ text _ induction =>
      rw [List.flatMap_cons, text, Markdown.plainTexts, induction]
      rfl
  | @marked mark head others rest inner made nodes _ _ _ makes _ _ inductionInside induction =>
      have texts : ((head :: others).map (Piece.without mark)).flatMap Piece.nodes =
          (head :: others).flatMap Piece.nodes := List.flatMap_map ..
      calc
        Markdown.plainTexts (made :: nodes) = made.plainText ++ Markdown.plainTexts nodes := rfl
        _ = Markdown.plainTexts ((head :: others).flatMap Piece.nodes) ++
            Markdown.plainTexts (rest.flatMap Piece.nodes) := by
          rw [makes.plainText, inductionInside, induction, texts]
        _ = Markdown.plainTexts ((head :: (others ++ rest)).flatMap Piece.nodes) := by
          rw [← Markdown.plainTexts_append, ← List.flatMap_append]
          rfl

/-! The markdown of texts is bundled. -/

theorem appliedFirst_chosen (isText : IsTextPiece head)
    (isTexts : ∀ piece ∈ pieces, IsTextPiece piece) {first : Mark} {others : List Mark}
    (marks : head.marks = first :: others) :
    AppliedFirst (Piece.chosen first others pieces) head pieces.head? := by
  have canonical : ∀ mark ∈ first :: others, CanonicalMark mark :=
    fun mark member => isText.marks mark (marks ▸ member)
  have carries : ∀ mark ∈ first :: others,
      (pieces.head?.any (Piece.carries mark) ↔ ∃ piece ∈ pieces.head?, mark ∈ piece.marks) := by
    intro mark member
    simp only [Option.any_eq_true]
    refine exists_congr fun piece => and_congr_right fun isNext => ?_
    exact (isTexts piece (List.mem_of_mem_head? isNext)).carries_iff (canonical mark member)
  have ranked := isText.ranked
  rw [marks] at ranked
  have inMarks : ∀ mark ∈ head.marks, mark ∈ first :: others := fun mark member => marks ▸ member
  unfold Piece.chosen
  cases found : (first :: others).find? fun mark => pieces.head?.any (Piece.carries mark) with
  | none =>
      rw [List.find?_eq_none] at found
      refine ⟨by simp [marks], fun other member shared => ?_, fun other member lower => ?_⟩
      · exact absurd ((carries other (inMarks other member)).2 shared)
          (found other (inMarks other member))
      · have before : other ∈ ([] : List Mark) :=
          Schema.mem_before_of_rank_lt ranked (inMarks other member) lower
        cases before
  | some mark =>
      obtain ⟨carried, before, after, equality, notBefore⟩ := List.find?_eq_some_iff_append.1 found
      have member : mark ∈ first :: others := by simp [equality]
      have shared := (carries mark member).1 carried
      rw [Option.getD_some]
      refine ⟨marks ▸ member, fun _ _ _ => shared, fun other inHead lower => ?_⟩
      have isBefore : other ∈ before :=
        Schema.mem_before_of_rank_lt (equality ▸ ranked) (equality ▸ inMarks other inHead) lower
      have notShared : ¬pieces.head?.any (Piece.carries other) := by
        simpa using notBefore other isBefore
      rw [carries other (inMarks other inHead)] at notShared
      obtain ⟨piece, isNext, inNext⟩ := shared
      exact ⟨piece, isNext, inNext, fun inside => notShared ⟨piece, isNext, inside⟩⟩

theorem exists_applyMark {nodes : List Markdown.Node} (canonical : CanonicalMark mark)
    (isText : IsTextPiece head) (bundled : Bundled (head :: pieces) nodes) :
    ∃ made, Makes mark nodes made ∧ Registry.standard.applyMark mark nodes = [made] := by
  rcases canonical.encloses_or_code with ⟨outer, encloses⟩ | rfl
  · refine ⟨outer nodes, .outer encloses nodes, ?_⟩
    rw [encloses.applyMark]
    simp [enclose, bundled.ne_nil]
  · refine ⟨_, .code nodes, ?_⟩
    have applied : Registry.standard.applyMark ⟨"code", .empty⟩ nodes =
        if (Markdown.plainTexts nodes).isEmpty then []
        else [.inlineCode (Markdown.plainTexts nodes)] := rfl
    have isFilled : (Markdown.plainTexts nodes).isEmpty = false := by
      have filled := isText.plainTexts_ne pieces
      rw [bundled.plainTexts]
      simpa using filled
    rw [applied, isFilled]
    rfl

/-- The induction follows the recursion of the run: a bundle is a shorter run without its mark, and
what comes after it is a shorter line. -/
theorem bundled_markedRun (pieces : List Piece) (isText : ∀ piece ∈ pieces, IsTextPiece piece) :
    Bundled pieces (markedRun Registry.standard.applyMark pieces) := by
  induction pieces using markedRun.induct with
  | case1 =>
      rw [markedRun_nil]
      exact .nil
  | case2 piece rest unmarked induction =>
      obtain ⟨value, filled, text⟩ := (isText piece (by simp)).text
      rw [markedRun_of_unmarked _ unmarked, text]
      exact .text unmarked text
        (induction fun other member => isText other (List.mem_cons_of_mem _ member))
  | case3 piece rest first others marked mark run inductionInside =>
      rename_i inductionRest
      have isRest : ∀ other ∈ rest, IsTextPiece other :=
        fun other member => isText other (List.mem_cons_of_mem _ member)
      have chosen : AppliedFirst mark piece rest.head? :=
        appliedFirst_chosen (isText piece (by simp)) isRest marked
      have canonical : CanonicalMark mark := (isText piece (by simp)).marks mark chosen.carried
      have inside : Bundled (piece.without mark :: run)
          (markedRun Registry.standard.applyMark (piece.without mark :: run)) := by
        apply inductionInside
        refine List.forall_mem_cons.2 ⟨(isText piece (by simp)).without mark, ?_⟩
        apply IsTextPiece.without_all
        exact fun other member => isRest other ((List.takeWhile_prefix _).subset member)
      have behind : Bundled (rest.dropWhile (Piece.carries mark)) _ :=
        inductionRest fun other member =>
          isRest other ((List.dropWhile_suffix _).subset member)
      obtain ⟨made, makes, applied⟩ :=
        exists_applyMark canonical ((isText piece (by simp)).without mark) inside
      have whole : rest.takeWhile (Piece.carries mark) ++ rest.dropWhile (Piece.carries mark) =
          rest := List.takeWhile_append_dropWhile
      have bundled : Bundled
          (piece :: (rest.takeWhile (Piece.carries mark) ++ rest.dropWhile (Piece.carries mark)))
          (made ::
            markedRun Registry.standard.applyMark (rest.dropWhile (Piece.carries mark))) := by
        refine .marked (whole.symm ▸ chosen) (fun other member => ?_) (fun other isNext => ?_)
          makes inside behind
        · have carried := List.all_eq_true.1 List.all_takeWhile other member
          have inRest := (List.takeWhile_prefix _).subset member
          exact ((isRest other inRest).carries_iff canonical).1 carried
        · have inRest := (List.dropWhile_suffix _).subset (List.mem_of_mem_head? isNext)
          rw [← (isRest other inRest).carries_iff canonical]
          have free := List.head?_dropWhile_not (Piece.carries mark) rest
          rw [Option.mem_def.1 isNext] at free
          simp [free]
      rw [markedRun_of_marked _ marked rfl, applied]
      rwa [whole] at bundled

/-! Texts of documents. -/

structure MarkedText (node : Document.Node) : Prop where
  type : node.type = "text"
  text : ∃ value, value ≠ "" ∧ node.text = some value
  marks : ∀ mark ∈ node.marks, CanonicalMark mark
  distinct : (node.marks.map Mark.type).Nodup

def textPiece (node : Document.Node) : Piece :=
  ⟨standardSchema.orderMarks node.marks, Registry.standard.toNodes node⟩

theorem CanonicalMark.declared (canonical : CanonicalMark mark) :
    (standardSchema.markSpec? mark.type).isSome := by
  cases canonical <;> rfl

theorem MarkedText.toNodes {node : Document.Node} (marked : MarkedText node) {value : String}
    (filled : value ≠ "") (text : node.text = some value) :
    Registry.standard.toNodes node = [.text value] := by
  cases node with
  | mk type attrs content marks _ =>
      cases marked.type
      cases text
      have isFilled : value.isEmpty = false := by simpa using filled
      calc
        Registry.standard.toNodes ⟨"text", attrs, content, marks, some value⟩ =
            if value.isEmpty then [] else [.text value] := rfl
        _ = [.text value] := by rw [isFilled]; rfl

theorem MarkedText.isTextPiece {node : Document.Node} (marked : MarkedText node) :
    IsTextPiece (textPiece node) where
  text := by
    obtain ⟨value, filled, text⟩ := marked.text
    exact ⟨value, filled, marked.toNodes filled text⟩
  marks := fun mark member => marked.marks mark (Schema.mem_orderMarks.1 member)
  ranked := Schema.ranked_orderMarks (fun mark member => (marked.marks mark member).declared)
    marked.distinct

theorem bundled_contentToMarkdown {line : List Document.Node}
    (marked : ∀ node ∈ line, MarkedText node) :
    (∀ piece ∈ line.map textPiece, IsTextPiece piece) ∧
      Bundled (line.map textPiece) (Registry.standard.contentToMarkdown line) := by
  have isText : ∀ piece ∈ line.map textPiece, IsTextPiece piece := by
    intro piece member
    obtain ⟨node, inLine, rfl⟩ := List.mem_map.1 member
    exact (marked node inLine).isTextPiece
  refine ⟨isText, ?_⟩
  rw [Registry.contentToMarkdown, Registry.toPieces_eq]
  exact bundled_markedRun _ isText

end EditorMarkdown.Conversion
