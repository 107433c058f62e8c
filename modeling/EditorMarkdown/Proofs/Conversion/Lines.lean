import EditorMarkdown.Proofs.Conversion.Runs
import EditorMarkdown.Proofs.Markdown.Merging

/-!
Canonical lines come back from markdown. Outside of headings the breaks come back too, and in a
heading the markdown has no breaks to fold and no texts to merge.
-/

namespace EditorMarkdown.Conversion

open Document (Mark)

variable {context : Context} {mark : Mark} {node : Document.Node} {line : List Document.Node}
variable {source : Markdown.Node} {nodes : List Markdown.Node}

theorem LeafForm.fromNode (form : LeafForm node source) (index : Nat)
    (fits : context.headingLevel = none ∨ node.type ≠ "hardBreak") :
    Registry.standard.fromNode context index source = .ok [node] := by
  cases form with
  | @text value filled =>
      have isFilled : value.isEmpty = false := by simpa using filled
      rw [fromNode_childless rfl rfl]
      simp only [textFromMarkdown, isFilled]
      rfl
  | hardBreak =>
      have outside : (context.enter .lineBreak index).headingLevel = none := by
        rcases fits with outside | other
        · exact outside
        · exact absurd rfl other
      rw [fromNode_childless rfl rfl]
      simp only [hardBreakFromMarkdown, outside]
      rfl
  | @image src alt title filled =>
      rw [fromNode_childless rfl rfl]
      cases alt with
      | none => cases title <;> rfl
      | some alt =>
          have isFilled : alt.isEmpty = false := by simpa using filled
          simp only [imageFromMarkdown, Option.getD_some, isFilled]
          cases title <;> rfl

theorem fromNode_inlineCode {value : String} (filled : value ≠ "") (index : Nat) :
    Registry.standard.fromNode context index (.inlineCode value) =
      .ok [.ofText value [⟨"code", .empty⟩]] := by
  have isFilled : value.isEmpty = false := by simpa using filled
  rw [fromNode_childless rfl rfl]
  simp only [codeFromMarkdown, isFilled]
  rfl

theorem Encloses.headingLevel_enter {outer : List Markdown.Node → Markdown.Node}
    (encloses : Encloses mark outer) (index : Nat) :
    (context.enter (outer nodes) index).headingLevel = context.headingLevel := by
  cases encloses <;> rfl

theorem Encloses.fromNode {outer : List Markdown.Node → Markdown.Node}
    (encloses : Encloses mark outer) {index : Nat} {children : List Document.Node}
    (converted : Registry.standard.fromNodes (context.enter (outer nodes) index) 0 nodes =
      .ok children) :
    Registry.standard.fromNode context index (outer nodes) =
      .ok (standardSchema.markInline mark children) := by
  have inside : (outer nodes).children = nodes := by cases encloses <;> rfl
  have below : Registry.standard.fromNodes (context.enter (outer nodes) index) 0
      (outer nodes).children = .ok children := by rw [inside, converted]
  cases encloses with
  | link href title =>
      rw [fromNode_standard below rfl]
      cases title <;> rfl
  | bold | italic | strike =>
      rw [fromNode_standard below rfl]
      rfl

theorem markInline_unmark
    (marked : ∀ node ∈ line, CanonicalInline node ∧ mark ∈ node.marks) :
    standardSchema.markInline mark (line.map (unmark mark)) = line := by
  induction line with
  | nil => rfl
  | cons node rest induction =>
      obtain ⟨inline, member⟩ := marked node (by simp)
      have isInline := (canonicalInline_unmark inline mark).isInline
      have others := induction fun other inRest => marked other (List.mem_cons_of_mem _ inRest)
      simp only [Document.Schema.markInline] at others ⊢
      rw [List.map_cons, List.map_cons, if_pos isInline, inline.addMark_unmark member, others]

theorem Unbroken.unmark (unbroken : Unbroken line) (mark : Mark) :
    Unbroken (line.map (unmark mark)) := by
  intro node member
  obtain ⟨marked, inLine, rfl⟩ := List.mem_map.1 member
  exact unbroken marked inLine

theorem Grouped.fromNodes (grouped : Grouped line nodes) :
    ∀ {context : Context} (index : Nat), context.headingLevel = none ∨ Unbroken line →
      Registry.standard.fromNodes context index nodes = .ok line := by
  induction grouped with
  | nil =>
      intro context index _
      rfl
  | leaf form rest induction =>
      intro context index fits
      refine fromNodes_cons (form.fromNode index (fits.imp_right fun unbroken => ?_))
        (induction (index + 1) (fits.imp_right fun unbroken => ?_))
      · exact unbroken _ (by simp)
      · exact fun other member => unbroken other (List.mem_cons_of_mem _ member)
  | code filled rest induction =>
      intro context index fits
      refine fromNodes_cons (fromNode_inlineCode filled index)
        (induction (index + 1) (fits.imp_right fun unbroken => ?_))
      exact fun other member => unbroken other (List.mem_cons_of_mem _ member)
  | @enclosed mark outer run line inner nodes encloses marked inside rest inductionInside
      inductionRest =>
      intro context index fits
      have converted : Registry.standard.fromNodes (context.enter (outer inner) index) 0 inner =
          .ok (run.map (Conversion.unmark mark)) := by
        apply inductionInside 0
        rw [encloses.headingLevel_enter]
        refine fits.imp_right fun unbroken => Unbroken.unmark (fun other member => ?_) mark
        exact unbroken other (List.mem_append_left _ member)
      have read := encloses.fromNode converted
      rw [markInline_unmark marked] at read
      refine fromNodes_cons read (inductionRest (index + 1) (fits.imp_right fun unbroken => ?_))
      exact fun other member => unbroken other (List.mem_append_right _ member)

/-! Texts that are not merged. -/

theorem reverse_foldl_push {α : Type} (push : α → List α → List α) (apart : α → α → Prop)
    (bottom : ∀ item, push item [] = [item])
    (above : ∀ previous item rest, apart previous item →
      push item (previous :: rest) = item :: previous :: rest)
    {items : List α} (chain : items.IsChain apart) :
    (items.foldl (fun done item => push item done) []).reverse = items := by
  suffices general : ∀ (items done : List α), (done.reverse ++ items).IsChain apart →
      items.foldl (fun done item => push item done) done = items.reverse ++ done by
    rw [general items [] chain]
    simp
  intro items
  induction items with
  | nil => simp
  | cons item rest induction =>
      intro done chain
      have pushed : push item done = item :: done := by
        cases done with
        | nil => exact bottom item
        | cons previous older =>
            apply above
            rw [List.isChain_append] at chain
            exact chain.2.2 previous (by simp) item (by simp)
      rw [List.foldl_cons, pushed, induction (item :: done) (by simpa using chain)]
      simp

theorem eq_of_sameMarks : ∀ {first second : List Mark}, (∀ mark ∈ first, CanonicalMark mark) →
    (∀ mark ∈ second, CanonicalMark mark) → Document.sameMarks first second → first = second
  | [], [], _, _, _ => rfl
  | mark :: rest, other :: others, canonical, canonicalOther, same => by
      simp only [Document.sameMarks, Bool.and_eq_true] at same
      have head := (canonical mark (by simp)).eq_of_same (canonicalOther other (by simp)) same.1
      have tail := eq_of_sameMarks
        (fun next member => canonical next (List.mem_cons_of_mem _ member))
        (fun next member => canonicalOther next (List.mem_cons_of_mem _ member)) same.2
      rw [head, tail]
  | [], _ :: _, _, _, same => by simp [Document.sameMarks] at same
  | _ :: _, [], _, _, same => by simp [Document.sameMarks] at same

theorem mergeTexts_of_merged (canonical : CanonicalLine line) (merged : Merged line) :
    Document.mergeTexts line = line := by
  unfold Document.mergeTexts
  apply reverse_foldl_push Document.pushText fun first second =>
    ¬(first.isText ∧ second.isText ∧ Document.sameMarks first.marks second.marks)
  · intro node
    rfl
  · intro previous node rest apart
    cases first : previous.text with
    | none => simp only [Document.pushText, first]
    | some text =>
        cases second : node.text with
        | none => simp only [Document.pushText, first, second]
        | some more =>
            have differ : Document.sameMarks previous.marks node.marks = false := by
              simpa [Document.Node.isText, first, second] using apart
            simp [Document.pushText, first, second, differ]
  · refine merged.imp_of_mem_imp fun first second inLine inRest apart same => ?_
    refine apart ⟨same.1, same.2.1, ?_⟩
    exact eq_of_sameMarks (canonical.inline first inLine).marks
      (canonical.inline second inRest).marks same.2.2

def TextsApart (nodes : List Markdown.Node) : Prop :=
  nodes.IsChain fun first second => ¬(first.kind = .text ∧ second.kind = .text)

theorem TextsApart.reverse (apart : TextsApart nodes) : TextsApart nodes.reverse := by
  refine List.isChain_reverse.2 (apart.imp ?_)
  exact fun first second apart both => apart both.symm

theorem TextsApart.pushMerging (apart : TextsApart nodes) (node : Markdown.Node) :
    TextsApart (Markdown.pushMerging node nodes) := by
  rcases Markdown.pushMerging_eq node nodes with
    ⟨others, pushed⟩ | ⟨value, more, rest, rfl, rfl, merged⟩
  · rw [pushed]
    exact List.isChain_cons.2 ⟨others, apart⟩
  · rw [merged]
    -- the text that is there grows, and stays a text
    have chain := List.isChain_cons.1 apart
    exact List.isChain_cons.2 ⟨chain.1, chain.2⟩

theorem textsApart_mergeTexts (nodes : List Markdown.Node) :
    TextsApart (Markdown.mergeTexts nodes) := by
  have pushed : TextsApart (Markdown.mergeTexts nodes).reverse :=
    Markdown.mergeTexts_induction .nil fun node _ _ apart => apart.pushMerging node
  simpa using pushed.reverse

theorem mergeTexts_of_apart (apart : TextsApart nodes) : Markdown.mergeTexts nodes = nodes := by
  unfold Markdown.mergeTexts
  apply reverse_foldl_push Markdown.pushMerging _ _ _ apart
  · intro node
    rfl
  · intro previous node rest apart
    cases previous with
    | text value =>
        cases node with
        | text more => exact absurd ⟨rfl, rfl⟩ apart
        | _ => rfl
    | _ => rfl

/-! Headings. -/

theorem Merged.unmark (merged : Merged line)
    (marked : ∀ node ∈ line, CanonicalInline node ∧ mark ∈ node.marks) :
    Merged (line.map (unmark mark)) := by
  unfold Merged
  rw [List.isChain_map]
  refine merged.imp_of_mem_imp fun first second inLine inRest apart same => ?_
  obtain ⟨isText, isTextNext, marks⟩ := same
  obtain ⟨inline, member⟩ := marked first inLine
  obtain ⟨inlineNext, memberNext⟩ := marked second inRest
  refine apart ⟨isText, isTextNext, ?_⟩
  calc
    first.marks = standardSchema.addMark mark (Conversion.unmark mark first).marks :=
      (Document.Schema.addMark_filter_same member inline.ranked).symm
    _ = standardSchema.addMark mark (Conversion.unmark mark second).marks := by rw [marks]
    _ = second.marks := Document.Schema.addMark_filter_same memberNext inlineNext.ranked

theorem Grouped.exists_text (grouped : Grouped line (source :: nodes))
    (isText : source.kind = .text) :
    ∃ node rest, line = node :: rest ∧ node.isText ∧ node.marks = [] := by
  cases grouped with
  | leaf form _ =>
      cases form with
      | text filled => exact ⟨_, _, rfl, rfl, rfl⟩
      | hardBreak | image _ => cases isText
  | code _ _ => cases isText
  | enclosed encloses _ _ _ => cases encloses <;> cases isText

theorem LeafForm.rebuild (form : LeafForm node source) (unbroken : node.type ≠ "hardBreak") :
    source.rebuild Markdown.Node.breakToSpace Markdown.mergeTexts = source := by
  cases form with
  | hardBreak => exact absurd rfl unbroken
  | text _ | image _ => rfl

theorem Encloses.rebuild {outer : List Markdown.Node → Markdown.Node}
    (encloses : Encloses mark outer) (apart : TextsApart nodes)
    (kept : nodes.map (Markdown.Node.rebuild Markdown.Node.breakToSpace Markdown.mergeTexts) =
      nodes) :
    (outer nodes).rebuild Markdown.Node.breakToSpace Markdown.mergeTexts = outer nodes := by
  cases encloses <;>
    simp only [Markdown.Node.rebuild, Markdown.rebuildEach_eq_map, kept, mergeTexts_of_apart apart,
      Markdown.Node.breakToSpace]

theorem Grouped.rebuild (grouped : Grouped line nodes) :
    Unbroken line → Merged line → TextsApart nodes ∧
      nodes.map (Markdown.Node.rebuild Markdown.Node.breakToSpace Markdown.mergeTexts) =
        nodes := by
  induction grouped with
  | nil => exact fun _ _ => ⟨.nil, rfl⟩
  | @leaf node source line nodes form rest induction =>
      intro unbroken merged
      obtain ⟨apartNext, mergedRest⟩ := List.isChain_cons.1 merged
      obtain ⟨apart, kept⟩ := induction
        (fun other member => unbroken other (List.mem_cons_of_mem _ member)) mergedRest
      refine ⟨List.isChain_cons.2 ⟨?_, apart⟩, ?_⟩
      · rintro next isNext ⟨isText, isTextNext⟩
        cases form with
        | text filled =>
            obtain ⟨others, rfl⟩ := List.head?_eq_some_iff.1 isNext
            obtain ⟨other, _, rfl, isTextOther, unmarked⟩ := rest.exists_text isTextNext
            exact apartNext other rfl ⟨rfl, isTextOther, unmarked.symm⟩
        | hardBreak | image _ => cases isText
      · rw [List.map_cons, form.rebuild (unbroken node (by simp)), kept]
  | code filled rest induction =>
      intro unbroken merged
      obtain ⟨_, mergedRest⟩ := List.isChain_cons.1 merged
      obtain ⟨apart, kept⟩ := induction
        (fun other member => unbroken other (List.mem_cons_of_mem _ member)) mergedRest
      refine ⟨List.isChain_cons.2 ⟨?_, apart⟩, by rw [List.map_cons, kept]; rfl⟩
      rintro next _ ⟨isText, _⟩
      cases isText
  | @enclosed mark outer run line inner nodes encloses marked inside rest inductionInside
      inductionRest =>
      intro unbroken merged
      obtain ⟨mergedRun, mergedRest, _⟩ := List.isChain_append.1 merged
      obtain ⟨apartInside, keptInside⟩ := inductionInside
        (Unbroken.unmark (fun other member => unbroken other (List.mem_append_left _ member)) mark)
        (Merged.unmark mergedRun marked)
      obtain ⟨apart, kept⟩ := inductionRest
        (fun other member => unbroken other (List.mem_append_right _ member)) mergedRest
      refine ⟨List.isChain_cons.2 ⟨?_, apart⟩, ?_⟩
      · rintro next _ ⟨isText, _⟩
        cases encloses <;> cases isText
      · rw [List.map_cons, encloses.rebuild apartInside keptInside, kept]

theorem Grouped.foldBreaks (grouped : Grouped line nodes) (unbroken : Unbroken line)
    (merged : Merged line) : Markdown.foldBreaks nodes = nodes := by
  obtain ⟨apart, kept⟩ := grouped.rebuild unbroken merged
  rw [Markdown.foldBreaks, Markdown.rebuildAll, kept, mergeTexts_of_apart apart]

end EditorMarkdown.Conversion
