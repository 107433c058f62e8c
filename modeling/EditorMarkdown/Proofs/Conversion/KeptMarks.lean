import EditorMarkdown.Proofs.Conversion.Bundles
import EditorMarkdown.Proofs.Conversion.Restored
import Mathlib.Data.List.Forall2

/-!
What texts with code keep of their marks. A bundle for code is one text with the mark for code and
no other, so the marks that are still to be applied inside it are lost. None is left if neighbours
with code have the same marks, as code is the mark of the highest rank.
-/

namespace EditorMarkdown.Conversion

open Document (Mark Schema)

variable {context : Context} {mark : Mark} {head : Piece} {pieces others rest : List Piece}
variable {line back more : List Document.Node}

/-! Characters with their marks. -/

def Piece.chars (piece : Piece) : List (Char × List Mark) :=
  (Markdown.plainTexts piece.nodes).toList.map fun char => (char, piece.marks)

def pieceChars (pieces : List Piece) : List (Char × List Mark) := pieces.flatMap Piece.chars

def markedChars (line : List Document.Node) : List (Char × List Mark) :=
  line.flatMap fun node => (node.text.getD "").toList.map fun char => (char, node.marks)

/-- What is certain of a character: it gets no mark, and it loses none but beside code. -/
structure Keeps (before after : Char × List Mark) : Prop where
  char : after.1 = before.1
  marks : after.2.Sublist before.2
  code : codeMark ∈ before.2 → codeMark ∈ after.2
  uncoded : codeMark ∉ before.2 → after.2 = before.2

theorem Keeps.refl (char : Char × List Mark) : Keeps char char := ⟨rfl, .refl _, id, fun _ => rfl⟩

def CodeAlike (marks : List (List Mark)) : Prop :=
  marks.IsChain fun first second => codeMark ∈ first → codeMark ∈ second → first = second

/-- What is known of the texts that come back for pieces. -/
structure ComesBack (pieces : List Piece) (back : List Document.Node) : Prop where
  text : ∀ node ∈ back, node.isText
  keeps : List.Forall₂ Keeps (pieceChars pieces) (markedChars back)
  alike : CodeAlike (pieces.map Piece.marks) → markedChars back = pieceChars pieces
  needed : ∀ first second rest, pieces.map Piece.marks = first :: second :: rest →
    codeMark ∈ first → codeMark ∈ second → markedChars back = pieceChars pieces → first = second

theorem ComesBack.nil : ComesBack [] [] where
  text := fun _ member => absurd member List.not_mem_nil
  keeps := .nil
  alike := fun _ => rfl
  needed := by
    intro first second rest marks
    cases marks

@[simp] theorem pieceChars_append (pieces rest : List Piece) :
    pieceChars (pieces ++ rest) = pieceChars pieces ++ pieceChars rest := List.flatMap_append

@[simp] theorem markedChars_append (line more : List Document.Node) :
    markedChars (line ++ more) = markedChars line ++ markedChars more := List.flatMap_append

/-- What comes back for a run and for what is behind it; a run of one piece must not share code with
the next piece. -/
theorem ComesBack.append (run : ComesBack (head :: others) back) (behind : ComesBack rest more)
    (apart : others = [] → ∀ next ∈ rest.head?, codeMark ∈ head.marks → codeMark ∉ next.marks) :
    ComesBack (head :: others ++ rest) (back ++ more) where
  text := by
    intro node member
    rcases List.mem_append.1 member with inRun | inRest
    · exact run.text node inRun
    · exact behind.text node inRest
  keeps := by
    rw [pieceChars_append, markedChars_append]
    exact List.rel_append run.keeps behind.keeps
  alike := by
    intro alike
    rw [List.map_append] at alike
    obtain ⟨alikeRun, alikeRest, -⟩ := List.isChain_append.1 alike
    rw [pieceChars_append, markedChars_append, run.alike alikeRun, behind.alike alikeRest]
  needed := by
    intro first second more marks isCode isCodeNext same
    rw [pieceChars_append, markedChars_append] at same
    have sameRun := (List.append_inj same run.keeps.length_eq.symm).1
    cases others with
    | nil =>
        -- the second piece is the first one behind the run
        cases rest with
        | nil => simp at marks
        | cons next others =>
            simp only [List.cons_append, List.nil_append, List.map_cons, List.cons.injEq] at marks
            obtain ⟨rfl, rfl, -⟩ := marks
            exact absurd isCodeNext (apart rfl next rfl isCode)
    | cons next others =>
        simp only [List.cons_append, List.map_cons, List.cons.injEq] at marks
        obtain ⟨rfl, rfl, -⟩ := marks
        exact run.needed head.marks next.marks (others.map Piece.marks) rfl isCode isCodeNext
          sameRun

/-! Runs of pieces. -/

theorem comesBack_text {piece : Piece} {value : String} (unmarked : piece.marks = [])
    (text : piece.nodes = [.text value]) : ComesBack [piece] [.ofText value []] := by
  have chars : markedChars [.ofText value []] = pieceChars [piece] := by
    have inPiece : piece.chars = value.toList.map fun char => (char, []) := by
      rw [Piece.chars, text, Markdown.plainTexts_text, unmarked]
    calc
      markedChars [.ofText value []] = (value.toList.map fun char => (char, [])) ++ [] := rfl
      _ = piece.chars ++ [] := by rw [inPiece]
  refine ⟨?_, ?_, fun _ => chars, fun first second rest marks => ?_⟩
  · intro node member
    rw [List.mem_singleton.1 member]
    rfl
  · rw [chars]
    exact List.forall₂_same.2 fun char _ => .refl char
  · cases marks

theorem map_fst_pieceChars (pieces : List Piece) :
    (pieceChars pieces).map Prod.fst =
      (Markdown.plainTexts (pieces.flatMap Piece.nodes)).toList := by
  induction pieces with
  | nil => rfl
  | cons piece rest induction =>
      have chars : pieceChars (piece :: rest) = piece.chars ++ pieceChars rest := rfl
      rw [chars, List.map_append, induction, List.flatMap_cons, Markdown.plainTexts_append,
        String.toList_append, Piece.chars, List.map_map]
      congr 1
      exact List.map_id _

theorem exists_of_mem_pieceChars {char : Char × List Mark} (member : char ∈ pieceChars pieces) :
    ∃ piece ∈ pieces, char.2 = piece.marks := by
  obtain ⟨piece, inPieces, inPiece⟩ := List.mem_flatMap.1 member
  obtain ⟨_, -, rfl⟩ := List.mem_map.1 inPiece
  exact ⟨piece, inPieces, rfl⟩

theorem exists_mem_pieceChars {piece : Piece} (member : piece ∈ pieces)
    (isText : IsTextPiece piece) : ∃ char, (char, piece.marks) ∈ pieceChars pieces := by
  obtain ⟨value, filled, text⟩ := isText.text
  have some : (Markdown.plainTexts piece.nodes).toList ≠ [] := by
    simp [text, filled]
  obtain ⟨char, inText⟩ := List.exists_mem_of_ne_nil _ some
  exact ⟨char, List.mem_flatMap.2 ⟨piece, member, List.mem_map_of_mem inText⟩⟩

theorem CodeAlike.eq_first {first : List Mark} {marks : List (List Mark)}
    (alike : CodeAlike (first :: marks)) (isCode : codeMark ∈ first)
    (carried : ∀ next ∈ marks, codeMark ∈ next) : ∀ next ∈ marks, next = first := by
  induction marks generalizing first with
  | nil => exact fun _ member => absurd member List.not_mem_nil
  | cons second rest induction =>
      obtain ⟨apart, alikeRest⟩ := List.isChain_cons.1 alike
      have isCodeNext := carried second (by simp)
      have same := apart second rfl isCode isCodeNext
      intro next member
      rcases List.mem_cons.1 member with rfl | inRest
      · exact same.symm
      · have others := induction alikeRest isCodeNext
          fun other inRest => carried other (List.mem_cons_of_mem _ inRest)
        rw [others next inRest, same]

theorem CanonicalMark.rank_lt (canonical : CanonicalMark mark) (differs : mark ≠ codeMark) :
    standardSchema.rank mark.type < standardSchema.rank "code" := by
  apply Nat.lt_of_le_of_ne canonical.rank_le
  intro same
  have type := Schema.eq_of_rank_eq canonical.declared same
  cases canonical with
  | code => exact differs rfl
  | link _ _ | bold | italic | strike => simp [linkMark] at type

/-- Code is applied first only to a text without other marks, if the next text with code has the
same marks. -/
theorem marks_eq_of_code_first (isText : IsTextPiece head)
    (first : AppliedFirst codeMark head others.head?)
    (alike : ∀ next ∈ others.head?, codeMark ∈ next.marks → head.marks = next.marks) :
    head.marks = [codeMark] := by
  have only : ∀ mark ∈ head.marks, mark = codeMark := by
    intro mark member
    by_contra differs
    have lower := (isText.marks mark member).rank_lt differs
    obtain ⟨next, isNext, isCode, absent⟩ := first.lowest mark member lower
    exact absent (alike next isNext isCode ▸ member)
  have ranked := isText.ranked
  have carried := first.carried
  cases marks : head.marks with
  | nil => simp [marks] at carried
  | cons mark more =>
      cases more with
      | nil => rw [only mark (by simp [marks])]
      | cons second more =>
          rw [marks] at ranked
          have less := (List.pairwise_cons.1 ranked).1 second (by simp)
          rw [only mark (by simp [marks]), only second (by simp [marks])] at less
          exact absurd less (Nat.lt_irrefl _)

theorem comesBack_code (isText : ∀ piece ∈ head :: others, IsTextPiece piece)
    (first : AppliedFirst codeMark head others.head?)
    (carried : ∀ piece ∈ others, codeMark ∈ piece.marks) :
    ComesBack (head :: others)
      [.ofText (Markdown.plainTexts ((head :: others).flatMap Piece.nodes)) [codeMark]] := by
  have chars : markedChars
      [.ofText (Markdown.plainTexts ((head :: others).flatMap Piece.nodes)) [codeMark]] =
        (pieceChars (head :: others)).map fun char => (char.1, [codeMark]) := by
    calc
      _ = (Markdown.plainTexts ((head :: others).flatMap Piece.nodes)).toList.map
          fun char => (char, [codeMark]) := List.append_nil _
      _ = _ := by
        rw [← map_fst_pieceChars, List.map_map]
        rfl
  have inRun : ∀ piece ∈ head :: others, codeMark ∈ piece.marks :=
    List.forall_mem_cons.2 ⟨first.carried, carried⟩
  refine ⟨?_, ?_, fun alike => ?_, fun one two more marks _ _ same => ?_⟩
  · intro node member
    rw [List.mem_singleton.1 member]
    rfl
  · rw [chars, List.forall₂_map_right_iff, List.forall₂_same]
    intro char member
    obtain ⟨piece, inPieces, marks⟩ := exists_of_mem_pieceChars member
    have isCode : codeMark ∈ char.2 := marks ▸ inRun piece inPieces
    exact ⟨rfl, List.singleton_sublist.2 isCode, fun _ => List.mem_singleton_self _,
      fun uncoded => absurd isCode uncoded⟩
  · have alone : head.marks = [codeMark] := by
      apply marks_eq_of_code_first (isText head (by simp)) first
      intro next isNext isCode
      apply (List.isChain_cons.1 alike).1 next.marks _ first.carried isCode
      rw [List.head?_map, isNext]
      rfl
    have others := CodeAlike.eq_first alike first.carried
      (List.forall_mem_map.2 carried)
    rw [chars]
    calc
      _ = (pieceChars (head :: _)).map id := by
        refine List.map_congr_left fun char member => ?_
        obtain ⟨piece, inPieces, marks⟩ := exists_of_mem_pieceChars member
        rcases List.mem_cons.1 inPieces with rfl | inOthers
        · rw [← alone, ← marks]
          rfl
        · have same := others piece.marks (List.mem_map_of_mem inOthers)
          rw [← alone, ← same, ← marks]
          rfl
      _ = _ := List.map_id _
  · have alone : ∀ piece ∈ head :: others, piece.marks = [codeMark] := by
      intro piece member
      obtain ⟨char, inPieces⟩ := exists_mem_pieceChars member (isText piece member)
      rw [← same, chars] at inPieces
      obtain ⟨_, -, equality⟩ := List.mem_map.1 inPieces
      exact (Prod.mk.inj equality).2.symm
    have each : ∀ marks ∈ (head :: others).map Piece.marks, marks = [codeMark] :=
      List.forall_mem_map.2 alone
    rw [marks] at each
    rw [each one (by simp), each two (by simp)]

/-! Runs that are enclosed. -/

def addTo (mark : Mark) (char : Char × List Mark) : Char × List Mark :=
  (char.1, standardSchema.addMark mark char.2)

def removeFrom (mark : Mark) (char : Char × List Mark) : Char × List Mark :=
  (char.1, char.2.filter fun other => !other.same mark)

theorem pieceChars_without (mark : Mark) (pieces : List Piece) :
    pieceChars (pieces.map (Piece.without mark)) = (pieceChars pieces).map (removeFrom mark) := by
  rw [pieceChars, pieceChars, List.flatMap_map, List.map_flatMap]
  congr 1
  funext piece
  rw [Piece.chars, Piece.chars, List.map_map]
  rfl

theorem markInline_texts (text : ∀ node ∈ back, node.isText) :
    standardSchema.markInline mark back =
      back.map fun node => { node with marks := standardSchema.addMark mark node.marks } := by
  refine List.map_congr_left fun node member => if_pos ?_
  rw [Schema.isInline, text node member]
  rfl

theorem markedChars_markInline (text : ∀ node ∈ back, node.isText) :
    markedChars (standardSchema.markInline mark back) = (markedChars back).map (addTo mark) := by
  rw [markInline_texts text, markedChars, markedChars, List.flatMap_map, List.map_flatMap]
  congr 1
  funext node
  rw [List.map_map]
  rfl

structure Carries (mark : Mark) (char : Char × List Mark) : Prop where
  carried : mark ∈ char.2
  ranked : standardSchema.Ranked char.2

variable {before after : Char × List Mark}

theorem Carries.addTo_removeFrom (carries : Carries mark before) :
    addTo mark (removeFrom mark before) = before :=
  Prod.ext rfl (Schema.addMark_filter_same carries.carried carries.ranked)

theorem codeMark_mem_filter_iff (other : mark.type ≠ "code") (marks : List Mark) :
    codeMark ∈ marks.filter (fun other => !other.same mark) ↔ codeMark ∈ marks := by
  have differs : codeMark.same mark = false := by
    simp [Mark.same, codeMark, Ne.symm other]
  simp [List.mem_filter, differs]

theorem Carries.keeps (carries : Carries mark before) (other : mark.type ≠ "code")
    (keeps : Keeps (removeFrom mark before) after) : Keeps before (addTo mark after) := by
  obtain ⟨front, rear, parts, added, inside⟩ :=
    Schema.exists_addMark_of_sublist carries.carried carries.ranked keeps.marks
  have inRemoved := codeMark_mem_filter_iff other before.2
  refine ⟨keeps.char, ?_, fun isCode => ?_, fun uncoded => ?_⟩
  · rw [addTo, added]
    exact inside
  · have kept := keeps.code (inRemoved.2 isCode)
    rw [parts] at kept
    rw [addTo, added]
    rcases List.mem_append.1 kept with inFront | inRear
    · exact List.mem_append_left _ inFront
    · exact List.mem_append_right _ (List.mem_cons_of_mem _ inRear)
  · have same := keeps.uncoded (mt inRemoved.1 uncoded)
    rw [addTo, same]
    exact Schema.addMark_filter_same carries.carried carries.ranked

theorem Carries.eq_removeFrom (carries : Carries mark before)
    (keeps : Keeps (removeFrom mark before) after) (same : addTo mark after = before) :
    after = removeFrom mark before := by
  refine Prod.ext keeps.char ?_
  exact Schema.eq_filter_same_of_addMark carries.carried carries.ranked keeps.marks
    (congrArg Prod.snd same)

theorem map_addTo_eq_iff {chars kept : List (Char × List Mark)}
    (carries : ∀ char ∈ chars, Carries mark char)
    (keeps : List.Forall₂ Keeps (chars.map (removeFrom mark)) kept) :
    kept.map (addTo mark) = chars ↔ kept = chars.map (removeFrom mark) := by
  constructor
  · rintro rfl
    rw [List.forall₂_map_left_iff, List.forall₂_map_left_iff, List.forall₂_same] at keeps
    rw [List.map_map]
    calc
      kept = kept.map id := (List.map_id _).symm
      _ = kept.map (removeFrom mark ∘ addTo mark) := by
        refine List.map_congr_left fun char member => ?_
        have whole := carries (addTo mark char) (List.mem_map_of_mem member)
        exact whole.eq_removeFrom (keeps char member) rfl
  · rintro rfl
    rw [List.map_map]
    calc
      chars.map (addTo mark ∘ removeFrom mark) = chars.map id := by
        refine List.map_congr_left fun char member => ?_
        exact (carries char member).addTo_removeFrom
      _ = chars := List.map_id _

theorem codeAlike_without (alike : CodeAlike (pieces.map Piece.marks)) :
    CodeAlike ((pieces.map (Piece.without mark)).map Piece.marks) := by
  unfold CodeAlike at *
  rw [List.map_map, List.isChain_map]
  rw [List.isChain_map] at alike
  refine alike.imp fun first second same isCode isCodeNext => ?_
  have marks := same (List.mem_filter.1 isCode).1 (List.mem_filter.1 isCodeNext).1
  exact congrArg (List.filter _) marks

theorem comesBack_enclosed {outer : List Markdown.Node → Markdown.Node}
    (encloses : Encloses mark outer) (isText : ∀ piece ∈ pieces, IsTextPiece piece)
    (carried : ∀ piece ∈ pieces, mark ∈ piece.marks)
    (inside : ComesBack (pieces.map (Piece.without mark)) back) :
    ComesBack pieces (standardSchema.markInline mark back) := by
  have carries : ∀ char ∈ pieceChars pieces, Carries mark char := by
    intro char member
    obtain ⟨piece, inPieces, marks⟩ := exists_of_mem_pieceChars member
    exact ⟨marks ▸ carried piece inPieces, marks ▸ (isText piece inPieces).ranked⟩
  have other : mark.type ≠ "code" := by cases encloses <;> simp [linkMark]
  have keeps := inside.keeps
  rw [pieceChars_without] at keeps
  have whole := map_addTo_eq_iff carries keeps
  refine ⟨?_, ?_, fun alike => ?_, fun first second more marks isCode isCodeNext same => ?_⟩
  · intro node member
    rw [markInline_texts inside.text] at member
    obtain ⟨source, inBack, rfl⟩ := List.mem_map.1 member
    exact inside.text source inBack
  · rw [markedChars_markInline inside.text, List.forall₂_map_right_iff]
    rw [List.forall₂_map_left_iff] at keeps
    have both := (List.forall₂_and_left _ _).2 ⟨carries, keeps⟩
    exact both.imp fun before after known => known.1.keeps other known.2
  · rw [markedChars_markInline inside.text, whole, ← pieceChars_without]
    exact inside.alike (codeAlike_without alike)
  · rw [markedChars_markInline inside.text, whole, ← pieceChars_without] at same
    obtain ⟨head, behind, rfl, rfl, tail⟩ := List.map_eq_cons_iff.1 marks
    obtain ⟨next, others, rfl, rfl, -⟩ := List.map_eq_cons_iff.1 tail
    have rest := inside.needed (head.without mark).marks (next.without mark).marks _ rfl
      ((codeMark_mem_filter_iff other _).2 isCode) ((codeMark_mem_filter_iff other _).2 isCodeNext)
      same
    calc
      head.marks = standardSchema.addMark mark (head.without mark).marks :=
        (Schema.addMark_filter_same (carried head (by simp)) (isText head (by simp)).ranked).symm
      _ = standardSchema.addMark mark (next.without mark).marks := by rw [rest]
      _ = next.marks :=
        Schema.addMark_filter_same (carried next (by simp)) (isText next (by simp)).ranked

/-! Lines. -/

theorem AppliedFirst.inRun (first : AppliedFirst mark head (others ++ rest).head?)
    (ends : ∀ piece ∈ rest.head?, mark ∉ piece.marks) :
    AppliedFirst mark head others.head? := by
  cases others with
  | cons next others => exact first
  | nil =>
      refine ⟨first.carried, fun other _ shared => ?_, fun other member lower => ?_⟩
      · obtain ⟨next, isNext, _⟩ := shared
        cases isNext
      · obtain ⟨next, isNext, carried, _⟩ := first.lowest other member lower
        exact absurd carried (ends next isNext)

/-- The induction follows the bundles: what is in a bundle and what is behind it come back by
themselves. -/
theorem Bundled.exists_comesBack {nodes : List Markdown.Node} (bundled : Bundled pieces nodes)
    (isText : ∀ piece ∈ pieces, IsTextPiece piece) :
    ∀ (context : Context) (index : Nat), ∃ back,
      Registry.standard.fromNodes context index nodes = .ok back ∧ ComesBack pieces back := by
  induction bundled with
  | nil => exact fun _ _ => ⟨[], rfl, .nil⟩
  | @text piece rest value nodes unmarked text behind induction =>
      intro context index
      obtain ⟨back, read, kept⟩ := induction
        (fun other member => isText other (List.mem_cons_of_mem _ member)) context (index + 1)
      have filled := (isText piece (by simp)).filled text
      have first : Registry.standard.fromNode context index (.text value) =
          .ok [.ofText value []] :=
        (LeafForm.text filled).fromNode index (.inr (show "text" ≠ "hardBreak" by decide))
      refine ⟨_, fromNodes_cons first read, (comesBack_text unmarked text).append kept ?_⟩
      simp [unmarked]
  | @marked mark head others rest inner made nodes first carried ends makes inside behind
      inductionInside induction =>
      intro context index
      have isRun : ∀ piece ∈ head :: others, IsTextPiece piece :=
        fun piece inRun => isText piece (List.mem_append_left rest inRun)
      have isRest : ∀ piece ∈ rest, IsTextPiece piece :=
        fun piece inRest => isText piece (List.mem_cons_of_mem _ (List.mem_append_right _ inRest))
      obtain ⟨back, read, kept⟩ := induction isRest context (index + 1)
      have apart : others = [] → ∀ next ∈ rest.head?, codeMark ∈ head.marks →
          codeMark ∉ next.marks := by
        rintro rfl next isNext isCode isCodeNext
        obtain ⟨other, isOther, shared⟩ := first.shared codeMark isCode ⟨next, isNext, isCodeNext⟩
        exact ends other isOther shared
      cases makes with
      | @outer _ outer encloses _ =>
          have carriedRun : ∀ piece ∈ head :: others, mark ∈ piece.marks :=
            List.forall_mem_cons.2 ⟨first.carried, carried⟩
          obtain ⟨inBundle, readInner, keptInner⟩ := inductionInside
            (IsTextPiece.without_all isRun mark) (context.enter (outer inner) index) 0
          have made := encloses.fromNode readInner
          have keptRun := comesBack_enclosed encloses isRun carriedRun keptInner
          exact ⟨_, fromNodes_cons made read, keptRun.append kept apart⟩
      | code _ =>
          have texts : Markdown.plainTexts inner =
              Markdown.plainTexts ((head :: others).flatMap Piece.nodes) := by
            rw [inside.plainTexts, List.flatMap_map]
            rfl
          have filled : Markdown.plainTexts inner ≠ "" := by
            rw [texts]
            exact (isRun head (by simp)).plainTexts_ne others
          have keptRun := comesBack_code isRun (first.inRun ends) carried
          rw [← texts] at keptRun
          exact ⟨_, fromNodes_cons (fromNode_inlineCode filled index) read,
            keptRun.append kept apart⟩

theorem CanonicalInline.markedText {node : Document.Node} (inline : CanonicalInline node)
    (isText : node.isText) : MarkedText node := by
  obtain ⟨value, filled, equality⟩ := inline.eq_ofText isText
  refine ⟨?_, ⟨value, filled, ?_⟩, inline.marks, ?_⟩
  · rw [equality]
    rfl
  · rw [equality]
    rfl
  · rw [List.nodup_iff_pairwise_ne, List.pairwise_map]
    refine inline.ranked.imp ?_
    intro first second less same
    rw [same] at less
    exact Nat.lt_irrefl _ less

theorem canonicalInline_coded (canonical : CanonicalMark mark) (differs : mark ≠ codeMark)
    {value : String} (filled : value ≠ "") : CanonicalInline (.ofText value [mark, codeMark]) where
  leaf := .text filled
  marks := List.forall_mem_cons.2 ⟨canonical, List.forall_mem_singleton.2 .code⟩
  ranked := List.pairwise_pair.2 (canonical.rank_lt differs)
  code := fun _ => rfl

theorem pieceChars_textPiece (texts : ∀ node ∈ line, CanonicalInline node ∧ node.isText) :
    pieceChars (line.map textPiece) = markedChars line := by
  rw [pieceChars, markedChars, List.flatMap_map]
  refine List.flatMap_congr fun node member => ?_
  obtain ⟨inline, isText⟩ := texts node member
  obtain ⟨value, filled, text⟩ := (inline.markedText isText).text
  have nodes : Markdown.plainTexts (textPiece node).nodes = value := by
    calc
      _ = Markdown.plainTexts [.text value] :=
        congrArg Markdown.plainTexts ((inline.markedText isText).toNodes filled text)
      _ = value := Markdown.plainTexts_text value
  have marks : (textPiece node).marks = node.marks := Schema.orderMarks_of_ranked inline.ranked
  rw [Piece.chars, nodes, marks, text]
  rfl

theorem map_marks_textPiece (texts : ∀ node ∈ line, CanonicalInline node ∧ node.isText) :
    (line.map textPiece).map Piece.marks = line.map Document.Node.marks := by
  rw [List.map_map]
  exact List.map_congr_left fun node member =>
    Schema.orderMarks_of_ranked (texts node member).1.ranked

/-- A paragraph of texts comes back with the same text. A character gets no mark, and it loses none
but beside code; none is lost if neighbours with code have the same marks, and if the first two
texts have code, none is lost only if they have the same marks. -/
theorem toDocument_toMarkdown_marks (filled : line ≠ [])
    (texts : ∀ node ∈ line, CanonicalInline node ∧ node.isText) :
    ∃ back,
      Registry.standard.toDocument
        (Registry.standard.toMarkdown (.plain "doc" [.plain "paragraph" line])) =
          .ok (.plain "doc" [.plain "paragraph" back]) ∧
      (∀ node ∈ back, node.isText) ∧
      List.Forall₂ Keeps (markedChars line) (markedChars back) ∧
      (CodeAlike (line.map Document.Node.marks) → markedChars back = markedChars line) ∧
      ∀ first second rest, line = first :: second :: rest →
        codeMark ∈ first.marks → codeMark ∈ second.marks →
        markedChars back = markedChars line → first.marks = second.marks := by
  have marked : ∀ node ∈ line, MarkedText node :=
    fun node member => (texts node member).1.markedText (texts node member).2
  obtain ⟨isText, bundled⟩ := bundled_contentToMarkdown marked
  have some : Registry.standard.contentToMarkdown line ≠ [] := by
    obtain ⟨node, others, rfl⟩ := List.exists_cons_of_ne_nil filled
    exact bundled.ne_nil
  have made : Registry.standard.toMarkdown (.plain "doc" [.plain "paragraph" line]) =
      [.paragraph (Registry.standard.contentToMarkdown line)] := by
    rw [toMarkdown_doc, contentToMarkdown_cons rfl, toNodes_paragraph, contentToMarkdown_nil]
    simp [some]
  obtain ⟨back, read, kept⟩ := bundled.exists_comesBack isText
    ((Context.top.enter (.root [.paragraph (Registry.standard.contentToMarkdown line)]) 0).enter
      (.paragraph (Registry.standard.contentToMarkdown line)) 0) 0
  have keeps := kept.keeps
  have alike := kept.alike
  have needed := kept.needed
  rw [pieceChars_textPiece texts] at keeps alike needed
  rw [map_marks_textPiece texts] at alike needed
  refine ⟨back, ?_, kept.text, keeps, alike, ?_⟩
  · rw [made]
    apply toDocument_of_fromNodes
    exact fromNodes_cons (fromNode_standard read rfl) rfl
  · rintro first second rest rfl
    exact needed first.marks second.marks _ rfl

theorem toDocument_toMarkdown_marks_alike :
    let line : List Document.Node :=
      [.ofText "a" [⟨"bold", .empty⟩, codeMark], .ofText "b" [⟨"bold", .empty⟩, codeMark]]
    ∃ back,
      Registry.standard.toDocument
        (Registry.standard.toMarkdown (.plain "doc" [.plain "paragraph" line])) =
          .ok (.plain "doc" [.plain "paragraph" back]) ∧
      markedChars back = markedChars line := by
  intro line
  have isBold : ∀ value : String, value ≠ "" →
      CanonicalInline (.ofText value [⟨"bold", .empty⟩, codeMark]) :=
    fun value filled => canonicalInline_coded .bold (by simp [codeMark]) filled
  have texts : ∀ node ∈ line, CanonicalInline node ∧ node.isText := by
    refine List.forall_mem_cons.2 ⟨⟨?_, rfl⟩, List.forall_mem_singleton.2 ⟨?_, rfl⟩⟩
    · exact isBold "a" (by decide)
    · exact isBold "b" (by decide)
  have alike : CodeAlike (line.map Document.Node.marks) := List.isChain_pair.2 fun _ _ => rfl
  obtain ⟨back, made, -, -, kept, -⟩ := toDocument_toMarkdown_marks (by simp [line]) texts
  exact ⟨back, made, kept alike⟩

/-- Bold text and italic text with code beside each other become one text with code. -/
theorem toDocument_toMarkdown_loses_marks :
    let line : List Document.Node :=
      [.ofText "a" [⟨"bold", .empty⟩, codeMark], .ofText "b" [⟨"italic", .empty⟩, codeMark]]
    Registry.standard.toDocument
        (Registry.standard.toMarkdown (.plain "doc" [.plain "paragraph" line])) =
      .ok (.plain "doc" [.plain "paragraph" [.ofText "ab" [codeMark]]]) ∧
      ¬∀ line : List Document.Node, (∀ node ∈ line, CanonicalInline node ∧ node.isText) →
        (¬line.IsChain fun first second => ¬(first.hasMark "code" ∧ second.hasMark "code")) →
        ∃ back,
          Registry.standard.toDocument
            (Registry.standard.toMarkdown (.plain "doc" [.plain "paragraph" line])) =
              .ok (.plain "doc" [.plain "paragraph" back]) ∧
          markedChars back = markedChars line := by
  intro line
  have texts : ∀ node ∈ line, CanonicalInline node ∧ node.isText := by
    refine List.forall_mem_cons.2 ⟨⟨?_, rfl⟩, List.forall_mem_singleton.2 ⟨?_, rfl⟩⟩
    · exact canonicalInline_coded .bold (by simp [codeMark]) (by decide)
    · exact canonicalInline_coded .italic (by simp [codeMark]) (by decide)
  -- code is shared with the next text, so it is applied before the other marks
  have inside : markedRun Registry.standard.applyMark
      [⟨[⟨"bold", .empty⟩], [.text "a"]⟩, ⟨[⟨"italic", .empty⟩], [.text "b"]⟩] =
        [.strong [.text "a"], .emphasis [.text "b"]] := by
    calc
      _ = Registry.standard.applyMark ⟨"bold", .empty⟩
            (markedRun Registry.standard.applyMark [⟨[], [.text "a"]⟩]) ++
          markedRun Registry.standard.applyMark [⟨[⟨"italic", .empty⟩], [.text "b"]⟩] :=
        markedRun_marked ..
      _ = Registry.standard.applyMark ⟨"bold", .empty⟩
            (markedRun Registry.standard.applyMark [⟨[], [.text "a"]⟩]) ++
          (Registry.standard.applyMark ⟨"italic", .empty⟩
              (markedRun Registry.standard.applyMark [⟨[], [.text "b"]⟩]) ++
            markedRun Registry.standard.applyMark []) :=
        congrArg _ (markedRun_marked ..)
      _ = [.strong [.text "a"], .emphasis [.text "b"]] := by
        rw [markedRun_unmarked, markedRun_unmarked, markedRun_nil]
        rfl
  have run : Registry.standard.contentToMarkdown line = [.inlineCode "ab"] := by
    calc
      _ = Registry.standard.applyMark codeMark (markedRun Registry.standard.applyMark
            [⟨[⟨"bold", .empty⟩], [.text "a"]⟩, ⟨[⟨"italic", .empty⟩], [.text "b"]⟩]) ++
          markedRun Registry.standard.applyMark [] := markedRun_marked ..
      _ = [.inlineCode "ab"] := by
        rw [inside, markedRun_nil]
        rfl
  have lost : Registry.standard.toDocument
      (Registry.standard.toMarkdown (.plain "doc" [.plain "paragraph" line])) =
        .ok (.plain "doc" [.plain "paragraph" [.ofText "ab" [codeMark]]]) := by
    rw [toMarkdown_doc, contentToMarkdown_cons rfl, toNodes_paragraph, contentToMarkdown_nil, run]
    rfl
  refine ⟨lost, fun kept => ?_⟩
  have adjacent : ¬line.IsChain fun first second =>
      ¬(first.hasMark "code" ∧ second.hasMark "code") :=
    fun chain => List.isChain_pair.1 chain ⟨rfl, rfl⟩
  obtain ⟨back, made, same⟩ := kept line texts adjacent
  rw [lost] at made
  cases made
  simp [line, markedChars, Document.Node.ofText, codeMark] at same

end EditorMarkdown.Conversion
