import EditorMarkdown.Proofs.Conversion.Canonical
import Mathlib.Data.List.TakeWhile

/-!
A canonical line in markdown. Its nodes are grouped under the marks that they share, and each group
is a shorter canonical line without that mark.
-/

namespace EditorMarkdown.Conversion

open Document (Mark Schema)

variable {mark : Mark} {node : Document.Node} {line : List Document.Node}

/-! Marks of canonical nodes. -/

theorem fields_linkMark (href : String) (title : Option String) :
    (linkMark href title).attrs.fields =
      [("href", .string href), ("title", Json.nullable .string title)] := by
  cases title <;> rfl

theorem linkMark_eq_of_same {href other : String} {title rest : Option String}
    (same : (linkMark href title).same (linkMark other rest)) :
    linkMark href title = linkMark other rest := by
  simp only [Mark.same, Document.Attributes.same, fields_linkMark, Bool.and_eq_true] at same
  obtain ⟨-, fields⟩ := same
  cases title <;> cases rest <;>
    simp_all [Json.nullable, Json.Value.sameFields, Json.Value.same]

theorem CanonicalMark.eq_of_same {first second : Mark} (canonical : CanonicalMark first)
    (other : CanonicalMark second) (same : first.same second) : first = second := by
  have types : first.type = second.type := by
    simp only [Mark.same, Bool.and_eq_true, decide_eq_true_eq] at same
    exact same.1
  cases canonical with
  | link href title =>
      cases other with
      | link second rest => exact linkMark_eq_of_same same
      | _ => simp [linkMark] at types
  | _ => cases other <;> first | rfl | simp [linkMark] at types

/-- No mark stands inside code. -/
theorem CanonicalMark.rank_le (canonical : CanonicalMark mark) :
    standardSchema.rank mark.type ≤ standardSchema.rank "code" := by
  have checked : ∀ type ∈ ["link", "bold", "italic", "strike", "code"],
      standardSchema.rank type ≤ standardSchema.rank "code" := by decide
  apply checked
  cases canonical <;> simp [linkMark]

def unmark (mark : Mark) (node : Document.Node) : Document.Node :=
  { node with marks := node.marks.filter fun other => !other.same mark }

theorem canonicalInline_unmark (inline : CanonicalInline node) (mark : Mark) :
    CanonicalInline (unmark mark node) where
  leaf := inline.leaf
  marks := fun other member => inline.marks other (List.mem_filter.1 member).1
  ranked := inline.ranked.filter _
  code := by
    intro carried
    obtain ⟨other, member, isCode⟩ := List.any_eq_true.1 carried
    exact inline.code (List.any_eq_true.2 ⟨other, (List.mem_filter.1 member).1, isCode⟩)

theorem hasMark_of_unmark {type : String} (carried : (unmark mark node).hasMark type) :
    node.hasMark type := by
  obtain ⟨other, member, isType⟩ := List.any_eq_true.1 carried
  exact List.any_eq_true.2 ⟨other, (List.mem_filter.1 member).1, isType⟩

theorem CanonicalInline.addMark_unmark (inline : CanonicalInline node)
    (member : mark ∈ node.marks) :
    { unmark mark node with marks := standardSchema.addMark mark (unmark mark node).marks } =
      node := by
  cases node
  simp only [unmark, Schema.addMark_filter_same member inline.ranked]

theorem CanonicalInline.isInline (inline : CanonicalInline node) :
    standardSchema.isInline node := by
  have ofLeaf : ∀ leaf, CanonicalLeaf leaf → standardSchema.isInline leaf := by
    intro leaf canonical
    cases canonical <;> rfl
  exact ofLeaf { node with marks := [] } inline.leaf

/-! Lines. -/

theorem CanonicalLine.tail (canonical : CanonicalLine (node :: line)) : CanonicalLine line where
  inline := fun other member => canonical.inline other (List.mem_cons_of_mem _ member)
  apart := (List.isChain_cons.1 canonical.apart).2

theorem CanonicalLine.infix {part : List Document.Node} (canonical : CanonicalLine line)
    (inside : part <:+: line) : CanonicalLine part where
  inline := fun other member => canonical.inline other (inside.subset member)
  apart := canonical.apart.infix inside

theorem canonicalLine_unmark (canonical : CanonicalLine line) (mark : Mark) :
    CanonicalLine (line.map (unmark mark)) where
  inline := by
    intro node member
    obtain ⟨marked, inLine, rfl⟩ := List.mem_map.1 member
    exact canonicalInline_unmark (canonical.inline marked inLine) mark
  apart := by
    rw [List.isChain_map]
    exact canonical.apart.imp fun first second apart carried =>
      apart ⟨hasMark_of_unmark carried.1, hasMark_of_unmark carried.2⟩

/-! Groups. -/

/-- What stands in a line without marks, and what it is in markdown. -/
inductive LeafForm : Document.Node → Markdown.Node → Prop
  | text {value : String} (filled : value ≠ "") : LeafForm (.ofText value []) (.text value)
  | hardBreak : LeafForm (.plain "hardBreak" []) .lineBreak
  | image {src : String} {alt title : Option String} (filled : alt ≠ some "") :
      LeafForm
        (.typed "image"
          [("src", .string src), ("alt", Json.nullable .string alt),
            ("title", Json.nullable .string title)] [])
        (.image src title (alt.getD ""))

theorem CanonicalLeaf.exists_form (leaf : CanonicalLeaf node) :
    ∃ source, LeafForm node source := by
  cases leaf with
  | text filled => exact ⟨_, .text filled⟩
  | hardBreak => exact ⟨_, .hardBreak⟩
  | image filled => exact ⟨_, .image filled⟩

theorem LeafForm.toNodes {source : Markdown.Node} (form : LeafForm node source)
    (marks : List Mark) : Registry.standard.toNodes { node with marks } = [source] := by
  cases form with
  | text filled =>
      rename_i value
      calc
        Registry.standard.toNodes (.ofText value marks) =
            if value.isEmpty then [] else [.text value] := rfl
        _ = [.text value] := by simp [filled]
  | hardBreak => rfl
  | @image src alt title filled => cases alt <;> cases title <;> rfl

/-- The marks other than code, and the markdown that encloses what carries them. -/
inductive Encloses : Mark → (List Markdown.Node → Markdown.Node) → Prop
  | link (href : String) (title : Option String) :
      Encloses (linkMark href title) (.link href title)
  | bold : Encloses ⟨"bold", .empty⟩ .strong
  | italic : Encloses ⟨"italic", .empty⟩ .emphasis
  | strike : Encloses ⟨"strike", .empty⟩ .delete

theorem CanonicalMark.encloses_or_code (canonical : CanonicalMark mark) :
    (∃ outer, Encloses mark outer) ∨ mark = ⟨"code", .empty⟩ := by
  cases canonical with
  | link href title => exact .inl ⟨_, .link href title⟩
  | bold => exact .inl ⟨_, .bold⟩
  | italic => exact .inl ⟨_, .italic⟩
  | strike => exact .inl ⟨_, .strike⟩
  | code => exact .inr rfl

theorem Encloses.applyMark {outer : List Markdown.Node → Markdown.Node}
    (encloses : Encloses mark outer) (nodes : List Markdown.Node) :
    Registry.standard.applyMark mark nodes = enclose outer nodes := by
  cases encloses with
  | link href title => cases title <;> rfl
  | bold | italic | strike => rfl

/-- A line and its markdown, in which the nodes are grouped under their marks. -/
inductive Grouped : List Document.Node → List Markdown.Node → Prop
  | nil : Grouped [] []
  | leaf {node : Document.Node} {source : Markdown.Node} {line : List Document.Node}
      {nodes : List Markdown.Node} (form : LeafForm node source) (rest : Grouped line nodes) :
      Grouped (node :: line) (source :: nodes)
  | code {value : String} {line : List Document.Node} {nodes : List Markdown.Node}
      (filled : value ≠ "") (rest : Grouped line nodes) :
      Grouped (.ofText value [⟨"code", .empty⟩] :: line) (.inlineCode value :: nodes)
  | enclosed {mark : Mark} {outer : List Markdown.Node → Markdown.Node}
      {run line : List Document.Node} {inner nodes : List Markdown.Node}
      (encloses : Encloses mark outer)
      (marked : ∀ node ∈ run, CanonicalInline node ∧ mark ∈ node.marks)
      (inside : Grouped (run.map (unmark mark)) inner) (rest : Grouped line nodes) :
      Grouped (run ++ line) (outer inner :: nodes)

/-! The markdown of a canonical line is grouped. -/

def pieceOf (node : Document.Node) : Piece := ⟨node.marks, Registry.standard.toNodes node⟩

theorem pieceOf_unmark (inline : CanonicalInline node) (mark : Mark) :
    pieceOf (unmark mark node) = (pieceOf node).without mark := by
  obtain ⟨source, form⟩ := inline.leaf.exists_form
  cases node with
  | mk type attrs content marks text =>
      have own := form.toNodes marks
      have unmarked := form.toNodes (marks.filter fun other => !other.same mark)
      simp only [pieceOf, Piece.without, unmark, own, unmarked]

theorem toPieces_eq_map (canonical : CanonicalLine line) :
    Registry.standard.toPieces line = line.map pieceOf := by
  rw [Registry.toPieces_eq]
  refine List.map_congr_left fun node member => ?_
  have ordered : standardSchema.orderMarks node.marks = node.marks :=
    Schema.orderMarks_of_ranked (canonical.inline node member).ranked
  exact congrArg (Piece.mk · _) ordered

theorem mem_of_carries (canonical : CanonicalMark mark) (inline : CanonicalInline node)
    (carries : (pieceOf node).carries mark) : mark ∈ node.marks := by
  obtain ⟨other, member, same⟩ := List.any_eq_true.1 carries
  exact (inline.marks other member).eq_of_same canonical same ▸ member

/-- Code is applied to a node last, when nothing around it is code. -/
theorem marks_eq_of_chosen_code {first : Mark} {others : List Mark}
    (canonical : CanonicalLine (node :: line)) (marks : node.marks = first :: others)
    (chosen : Piece.chosen first others (line.map pieceOf) = ⟨"code", .empty⟩) :
    node.marks = [⟨"code", .empty⟩] ∧
      (line.map pieceOf).takeWhile (Piece.carries ⟨"code", .empty⟩) = [] := by
  have inline := canonical.inline node (by simp)
  have isCode : node.hasMark "code" := by
    have member := Piece.chosen_mem first others (line.map pieceOf)
    rw [chosen, ← marks] at member
    exact List.any_eq_true.2 ⟨_, member, by simp⟩
  have free : ∀ piece ∈ (line.map pieceOf).head?, piece.carries ⟨"code", .empty⟩ = false := by
    intro piece found
    cases line with
    | nil => simp at found
    | cons next rest =>
        cases found
        have apart := (List.isChain_cons.1 canonical.apart).1 next rfl
        rw [Bool.eq_false_iff]
        intro carries
        have member := mem_of_carries .code (canonical.inline next (by simp)) carries
        exact apart ⟨isCode, List.any_eq_true.2 ⟨_, member, by simp⟩⟩
  have isFirst : first = ⟨"code", .empty⟩ := by
    rw [← chosen]
    unfold Piece.chosen at chosen ⊢
    cases found : (first :: others).find? fun mark =>
        (line.map pieceOf).head?.any (Piece.carries mark) with
    | none => rfl
    | some mark =>
        simp only [found, Option.getD_some] at chosen
        have carried := List.find?_some found
        obtain ⟨piece, isHead, carries⟩ := (Option.any_eq_true _ _).1 carried
        rw [chosen, free piece isHead] at carries
        cases carries
  constructor
  · rw [marks, isFirst]
    cases others with
    | nil => rfl
    | cons second rest =>
        have ranked := inline.ranked
        rw [marks, isFirst] at ranked
        have above : standardSchema.rank "code" < standardSchema.rank second.type :=
          (List.pairwise_cons.1 ranked).1 second (by simp)
        have below := (inline.marks second (by simp [marks])).rank_le
        omega
  · cases line with
    | nil => rfl
    | cons next rest => simp [free (pieceOf next) rfl]

theorem markedRun_of_unmarked (wrap : Mark → List Markdown.Node → List Markdown.Node)
    {piece : Piece} (unmarked : piece.marks = []) (rest : List Piece) :
    markedRun wrap (piece :: rest) = piece.nodes ++ markedRun wrap rest := by
  cases piece with
  | mk marks nodes =>
      cases unmarked
      exact markedRun_unmarked wrap nodes rest

theorem markedRun_of_marked (wrap : Mark → List Markdown.Node → List Markdown.Node)
    {piece : Piece} {first : Mark} {others : List Mark} (marks : piece.marks = first :: others)
    {rest : List Piece} {mark : Mark} (chosen : Piece.chosen first others rest = mark) :
    markedRun wrap (piece :: rest) =
      wrap mark
          (markedRun wrap
            (piece.without mark :: (rest.takeWhile (Piece.carries mark)).map (Piece.without mark)))
        ++ markedRun wrap (rest.dropWhile (Piece.carries mark)) := by
  cases piece with
  | mk _ nodes =>
      cases marks
      cases chosen
      exact markedRun_marked wrap first others nodes rest

theorem exists_of_mem_run {piece other : Piece} {rest : List Piece}
    (carried : piece.carries mark) (member : other ∈ piece.without mark ::
      (rest.takeWhile (Piece.carries mark)).map (Piece.without mark)) :
    ∃ source ∈ piece :: rest, source.carries mark ∧ other = source.without mark := by
  rcases List.mem_cons.1 member with rfl | inRun
  · exact ⟨piece, List.mem_cons_self, carried, rfl⟩
  · obtain ⟨source, inTaken, rfl⟩ := List.mem_map.1 inRun
    exact ⟨source, List.mem_cons_of_mem _ ((List.takeWhile_prefix _).subset inTaken),
      List.mem_takeWhile_imp inTaken, rfl⟩

theorem carries_of_mem {piece : Piece} (member : mark ∈ piece.marks) : piece.carries mark :=
  List.any_eq_true.2 ⟨mark, member, mark.same_self⟩

theorem markedRun_closed {wrap : Mark → List Markdown.Node → List Markdown.Node}
    {property : List Markdown.Node → Prop} {applies : Mark → Prop} (nil : property [])
    (append : ∀ {nodes others}, property nodes → property others → property (nodes ++ others))
    (wrapped : ∀ {mark nodes}, applies mark → property nodes → property (wrap mark nodes))
    {pieces : List Piece}
    (each : ∀ piece ∈ pieces, (∀ mark ∈ piece.marks, applies mark) ∧ property piece.nodes) :
    property (markedRun wrap pieces) := by
  induction pieces using markedRun.induct with
  | case1 =>
      rw [markedRun_nil]
      exact nil
  | case2 piece rest unmarked induction =>
      rw [markedRun_of_unmarked _ unmarked]
      refine append (each piece List.mem_cons_self).2 (induction ?_)
      exact fun other member => each other (List.mem_cons_of_mem piece member)
  | case3 piece rest first others marked mark run inside =>
      rename_i behind
      have chosen : mark ∈ piece.marks := marked ▸ Piece.chosen_mem first others rest
      rw [markedRun_of_marked _ marked rfl]
      refine append (wrapped ?_ (inside ?_)) (behind ?_)
      · exact (each piece List.mem_cons_self).1 mark chosen
      · intro other member
        obtain ⟨source, inPieces, -, rfl⟩ := exists_of_mem_run (carries_of_mem chosen) member
        obtain ⟨marks, holds⟩ := each source inPieces
        exact ⟨fun mark member => marks mark (List.mem_filter.1 member).1, holds⟩
      · exact fun other member => each other
          (List.mem_cons_of_mem piece ((List.dropWhile_suffix _).subset member))

mutual
/-- What holds of no nodes, of nodes side by side and of what the hooks make of nodes holds of the
markdown of every node. -/
theorem toNodes_closed {registry : Registry} {property : List Markdown.Node → Prop}
    (nil : property [])
    (append : ∀ {nodes others}, property nodes → property others → property (nodes ++ others))
    (applied : ∀ (subject : Subject) {nodes}, property nodes →
      property (registry.applyTo subject nodes)) :
    (node : Document.Node) → property (registry.toNodes node)
  | ⟨type, attrs, content, marks, text⟩ => by
      rw [Registry.toNodes_eq]
      refine applied _ (markedRun_closed nil append (fun _ => applied (.mark _))
        fun piece member => ⟨fun _ _ => trivial, ?_⟩)
      exact toPieces_closed nil append applied content piece member

theorem toPieces_closed {registry : Registry} {property : List Markdown.Node → Prop}
    (nil : property [])
    (append : ∀ {nodes others}, property nodes → property others → property (nodes ++ others))
    (applied : ∀ (subject : Subject) {nodes}, property nodes →
      property (registry.applyTo subject nodes)) :
    (nodes : List Document.Node) → ∀ piece ∈ registry.toPieces nodes, property piece.nodes
  | [] => by simp [Registry.toPieces]
  | node :: rest => by
      rw [Registry.toPieces]
      exact List.forall_mem_cons.2
        ⟨toNodes_closed nil append applied node, toPieces_closed nil append applied rest⟩
end

theorem Grouped.ne_nil {nodes : List Markdown.Node} (grouped : Grouped line nodes)
    (filled : line ≠ []) : nodes ≠ [] := by
  cases grouped with
  | nil => exact absurd rfl filled
  | leaf _ _ | code _ _ | enclosed _ _ _ _ => simp

/-- What is enclosed is not empty, so the enclosing node is there. -/
theorem Grouped.enclose {nodes : List Markdown.Node} (grouped : Grouped (node :: line) nodes)
    (outer : List Markdown.Node → Markdown.Node) :
    Conversion.enclose outer nodes = [outer nodes] := by
  simp [Conversion.enclose, grouped.ne_nil]

theorem CanonicalInline.eq_ofText (inline : CanonicalInline node) (isText : node.isText) :
    ∃ value, value ≠ "" ∧ node = .ofText value node.marks := by
  cases node with
  | mk type attrs content marks text =>
      have leaf := inline.leaf
      generalize whole : ({ type, attrs, content, marks := [], text } : Document.Node) = bare
        at leaf
      cases leaf with
      | @text value filled =>
          cases whole
          exact ⟨value, filled, rfl⟩
      | hardBreak | image _ =>
          cases whole
          cases isText

theorem CanonicalInline.exists_form (inline : CanonicalInline node) (unmarked : node.marks = []) :
    ∃ source, LeafForm node source ∧ Registry.standard.toNodes node = [source] := by
  obtain ⟨source, form⟩ := inline.leaf.exists_form
  cases node with
  | mk type attrs content marks text =>
      cases unmarked
      exact ⟨source, form, form.toNodes []⟩

theorem grouped_code (inline : CanonicalInline node)
    (marks : node.marks = [⟨"code", .empty⟩]) {nodes : List Markdown.Node}
    (rest : Grouped line nodes) :
    Grouped (node :: line)
      (Registry.standard.applyMark ⟨"code", .empty⟩
        (markedRun Registry.standard.applyMark [(pieceOf node).without ⟨"code", .empty⟩]) ++
          nodes) := by
  have isText : node.isText := inline.code (by simp [Document.Node.hasMark, marks])
  obtain ⟨value, filled, equality⟩ := inline.eq_ofText isText
  have form := (LeafForm.text filled).toNodes [⟨"code", .empty⟩]
  have unmarked : (pieceOf node).without ⟨"code", .empty⟩ = ⟨[], [.text value]⟩ := by
    rw [equality, marks]
    simp only [pieceOf, Piece.without]
    congr 1
  rw [unmarked, markedRun_unmarked, markedRun_nil, equality, marks]
  have applied : Registry.standard.applyMark ⟨"code", .empty⟩ [.text value] =
      if (value ++ "").isEmpty then [] else [.inlineCode (value ++ "")] := rfl
  have isFilled : value.isEmpty = false := by simpa using filled
  rw [List.append_nil, applied, String.append_empty, isFilled]
  exact .code filled rest

theorem pieces_unmark (canonical : CanonicalLine (node :: line)) (mark : Mark) :
    (pieceOf node).without mark ::
        ((line.map pieceOf).takeWhile (Piece.carries mark)).map (Piece.without mark) =
      ((node :: line.takeWhile (Piece.carries mark ∘ pieceOf)).map (unmark mark)).map pieceOf := by
  have inside : ∀ other ∈ line.takeWhile (Piece.carries mark ∘ pieceOf),
      (pieceOf other).without mark = pieceOf (unmark mark other) := by
    intro other member
    have inLine := (List.takeWhile_prefix _).subset member
    exact (pieceOf_unmark (canonical.inline other (List.mem_cons_of_mem _ inLine)) mark).symm
  simp only [List.map_cons, pieceOf_unmark (canonical.inline node (by simp)) mark,
    List.takeWhile_map, List.map_map]
  congr 1
  exact List.map_congr_left inside

/-- The induction follows the recursion of the run: what is enclosed is a shorter run without the
mark, and what comes after it is a shorter line. -/
theorem grouped_markedRun (pieces : List Piece) :
    ∀ {line : List Document.Node}, CanonicalLine line → pieces = line.map pieceOf →
      Grouped line (markedRun Registry.standard.applyMark pieces) := by
  induction pieces using markedRun.induct with
  | case1 =>
      intro line _ equality
      cases List.map_eq_nil_iff.1 equality.symm
      rw [markedRun_nil]
      exact .nil
  | case2 piece rest unmarked induction =>
      intro line canonical equality
      obtain ⟨node, others, rfl, rfl, rfl⟩ := List.map_eq_cons_iff.1 equality.symm
      rw [markedRun_of_unmarked _ unmarked]
      obtain ⟨source, form, made⟩ := (canonical.inline node (by simp)).exists_form unmarked
      have nodes : (pieceOf node).nodes = [source] := made
      rw [nodes]
      exact .leaf form (induction canonical.tail rfl)
  | case3 piece rest first others marked mark run inductionInside =>
      rename_i inductionRest
      intro line canonical equality
      obtain ⟨node, line, rfl, rfl, rfl⟩ := List.map_eq_cons_iff.1 equality.symm
      have inline := canonical.inline node (by simp)
      have chosen : Piece.chosen first others (line.map pieceOf) = mark := rfl
      have marks : node.marks = first :: others := marked
      have member : mark ∈ node.marks := by
        rw [marks]
        exact Piece.chosen_mem first others (line.map pieceOf)
      have carried := inline.marks mark member
      rw [markedRun_of_marked _ marked chosen]
      have canonicalRest : CanonicalLine (line.dropWhile (Piece.carries mark ∘ pieceOf)) :=
        canonical.tail.infix (List.dropWhile_suffix _).isInfix
      have rest := inductionRest canonicalRest List.dropWhile_map
      rcases carried.encloses_or_code with ⟨outer, encloses⟩ | isCode
      · have canonicalRun :
            CanonicalLine (node :: line.takeWhile (Piece.carries mark ∘ pieceOf)) :=
          canonical.infix (List.cons_prefix_cons.2 ⟨rfl, List.takeWhile_prefix _⟩).isInfix
        have inside := inductionInside (canonicalLine_unmark canonicalRun mark)
          (pieces_unmark canonical mark)
        rw [encloses.applyMark, Grouped.enclose inside outer]
        have whole : (node :: line.takeWhile (Piece.carries mark ∘ pieceOf)) ++
            line.dropWhile (Piece.carries mark ∘ pieceOf) = node :: line := by simp
        rw [← whole]
        refine .enclosed encloses ?_ inside rest
        intro other inRun
        refine ⟨canonicalRun.inline other inRun, ?_⟩
        rcases List.mem_cons.1 inRun with rfl | inTail
        · exact member
        · exact mem_of_carries carried (canonicalRun.inline other inRun)
            (List.all_eq_true.1 List.all_takeWhile other inTail)
      · obtain ⟨alone, free⟩ := marks_eq_of_chosen_code canonical marks (chosen.trans isCode)
        clear_value mark
        cases isCode
        have all : line.dropWhile (Piece.carries ⟨"code", .empty⟩ ∘ pieceOf) = line := by
          have whole := List.takeWhile_append_dropWhile
            (p := Piece.carries ⟨"code", .empty⟩ ∘ pieceOf) (l := line)
          rw [List.takeWhile_map, List.map_eq_nil_iff] at free
          rwa [free] at whole
        rw [all] at rest
        rw [free]
        exact grouped_code inline alone rest

theorem grouped_contentToMarkdown (canonical : CanonicalLine line) :
    Grouped line (Registry.standard.contentToMarkdown line) := by
  rw [Registry.contentToMarkdown, toPieces_eq_map canonical]
  exact grouped_markedRun _ canonical rfl

end EditorMarkdown.Conversion
