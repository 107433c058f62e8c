import EditorMarkdown.Proofs.Conversion.Standard
import EditorMarkdown.Proofs.Document.Conforming
import EditorMarkdown.Proofs.Markdown.Parts

/-!
Converting markdown with the standard types gives a document that conforms to their schema.
-/

namespace EditorMarkdown.Conversion

open Document (Mark Schema UnknownType)

/-- A node of the document that conforms and, inside a heading, has no break. -/
structure Sound (context : Context) (node : Document.Node) : Prop where
  conforms : node.Conforms standardSchema
  unbroken : context.headingLevel.isSome → node.Unbroken

def GivesSound (context : Context) (result : Except UnknownType (List Document.Node)) : Prop :=
  ∃ nodes, result = .ok nodes ∧ ∀ node ∈ nodes, Sound context node

variable {context : Context} {name : String} {attrs : Document.Attributes}
  {children : List Document.Node} {made : Document.Node}

theorem exists_node (name : String) (declared : (standardSchema.nodeSpec? name).isSome)
    (attrs : Document.Attributes) (content : List Document.Node) :
    ∃ made, standardSchema.node name attrs content = .ok made := by
  obtain ⟨spec, found⟩ := Option.isSome_iff_exists.1 declared
  exact ⟨_, Schema.node_of_declared found attrs content⟩

theorem sound_node (equality : standardSchema.node name attrs children = .ok made)
    (text : name ≠ "text") (unbroken : name = "hardBreak" → context.headingLevel = none)
    (nests : made.Nests standardSchema) (sound : ∀ child ∈ children, Sound context child) :
    Sound context made where
  conforms := by
    refine Document.Node.conforms_iff.2 ⟨⟨Schema.fits_node equality text, nests⟩, ?_⟩
    rw [Schema.content_node equality]
    exact fun child member => (sound child member).conforms
  unbroken := by
    intro inHeading
    rw [Document.Node.unbroken_iff, Schema.type_node equality, Schema.content_node equality]
    refine ⟨fun isBreak => ?_, fun child member => (sound child member).unbroken inHeading⟩
    rw [unbroken isBreak] at inHeading
    cases inHeading

theorem givesSound_single (sound : Sound context made) : GivesSound context (.ok [made]) := by
  refine ⟨[made], rfl, fun node member => ?_⟩
  rw [List.mem_singleton.1 member]
  exact sound

theorem givesSound_bind {Value : Type} {result : Except UnknownType Value} {value : Value}
    {rest : Value → Except UnknownType (List Document.Node)} (equality : result = .ok value)
    (sound : GivesSound context (rest value)) : GivesSound context (result >>= rest) := by
  rw [equality]
  exact sound

/-! Types that ask nothing of their content. -/

def isFree (name : String) : Bool :=
  name ∉ ["text", "hardBreak", "blockquote", "callout", "listItem", "taskItem", "tableHeader",
    "tableCell", "heading", "bulletList", "taskList"]

theorem sound_free (free : isFree name)
    (equality : standardSchema.node name attrs children = .ok made)
    (sound : ∀ child ∈ children, Sound context child) : Sound context made := by
  simp only [isFree, List.mem_cons, not_or, decide_eq_true_eq] at free
  obtain ⟨text, unbroken, free⟩ := free
  refine sound_node equality text (fun isBreak => absurd isBreak unbroken) ?_ sound
  apply Document.Node.nests_of_free
  rw [Schema.type_node equality]
  simpa only [List.mem_cons, not_or] using free

theorem givesSound_free (free : isFree name)
    (declared : (standardSchema.nodeSpec? name).isSome) (attrs : Document.Attributes)
    (sound : ∀ child ∈ children, Sound context child) :
    GivesSound context (do return [← standardSchema.node name attrs children]) := by
  obtain ⟨made, equality⟩ := exists_node name declared attrs children
  rw [equality]
  exact givesSound_single (sound_free free equality sound)

/-! Texts and marks. -/

theorem sound_text {value : String} {marks : List Mark} (filled : value ≠ "")
    (fits : ∀ mark ∈ marks, mark.Fits standardSchema) (ranked : standardSchema.Ranked marks) :
    Sound context { Document.Node.plain "text" [] with marks, text := some value } where
  conforms := by
    refine Document.Node.conforms_iff.2 ⟨⟨?_, ?_⟩, by simp [Document.Node.plain]⟩
    · exact
        { declared := ⟨⟨"text", .inline, []⟩, rfl, fun _ => Iff.rfl⟩
          marked := fun _ => rfl
          marks := fits
          ranked := ranked
          text := by simp [Document.Node.plain]
          filled := by simpa using filled }
    · apply Document.Node.nests_of_free
      simp [Document.Node.plain]
  unbroken := by
    intro _
    rw [Document.Node.unbroken_iff]
    simp [Document.Node.plain]

theorem givesSound_text {value : String} (filled : value ≠ "") :
    GivesSound context (do return [← standardSchema.text value []]) :=
  givesSound_single (sound_text filled (by simp) List.Pairwise.nil)

theorem givesSound_markInline {mark : Mark} (fits : mark.Fits standardSchema)
    (sound : ∀ child ∈ children, Sound context child) :
    GivesSound context (.ok (standardSchema.markInline mark children)) := by
  refine ⟨_, rfl, fun node member => ⟨?_, fun inHeading => ?_⟩⟩
  · exact Document.conforms_markInline fits (fun child inside => (sound child inside).conforms)
      node member
  · exact Document.unbroken_markInline (fun child inside => (sound child inside).unbroken inHeading)
      node member

theorem givesSound_mark (declared : (standardSchema.markSpec? name).isSome)
    (attrs : Document.Attributes) (sound : ∀ child ∈ children, Sound context child) :
    GivesSound context (do
      let mark ← standardSchema.mark name attrs
      return standardSchema.markInline mark children) := by
  obtain ⟨spec, found⟩ := Option.isSome_iff_exists.1 declared
  have equality : standardSchema.mark name attrs =
      .ok ⟨name, Document.fillAttributes attrs spec.attrs⟩ := by
    simp [Schema.mark, found]
  rw [equality]
  exact givesSound_markInline (Schema.fits_mark equality) sound

theorem givesSound_code {value : String} (filled : value ≠ "") :
    GivesSound context (do
      let mark ← standardSchema.mark "code" .empty
      return [← standardSchema.text value [mark]]) := by
  have equality : standardSchema.mark "code" .empty = .ok ⟨"code", .empty⟩ := rfl
  have fits : Mark.Fits standardSchema ⟨"code", .empty⟩ := Schema.fits_mark equality
  have sound : Sound context
      { Document.Node.plain "text" [] with marks := [⟨"code", .empty⟩], text := some value } :=
    sound_text filled (by simpa using fits) (List.pairwise_singleton _ _)
  exact givesSound_single sound

/-! Quotes, callouts and items, which wrap what stands in a line. -/

theorem isInline_paragraph {line : List Document.Node}
    (equality : standardSchema.node "paragraph" .empty line = .ok made) :
    standardSchema.isInline made = false := by
  have declared : standardSchema.nodeSpec? made.type = some ⟨"paragraph", .block, []⟩ := by
    rw [Schema.type_node equality]
    rfl
  rw [Schema.isInline_of_type (Schema.text_node equality) declared]
  rfl

theorem exists_wrapInline (sound : ∀ child ∈ children, Sound context child) :
    ∃ wrapped, standardSchema.wrapInline children = .ok wrapped ∧
      (∀ node ∈ wrapped, Sound context node) ∧
      ∀ node ∈ wrapped, standardSchema.isInline node = false := by
  have declared : standardSchema.nodeSpec? "paragraph" = some ⟨"paragraph", .block, []⟩ := rfl
  obtain ⟨wrapped, equality, origin⟩ := Schema.wrapRun_ok declared children []
  refine ⟨wrapped, equality, fun node member => ?_, fun node member => ?_⟩
  · rcases origin node member with ⟨inChildren, _⟩ | ⟨line, paragraph, inside⟩
    · exact sound node inChildren
    · exact sound_free rfl paragraph fun child inLine =>
        sound child (by simpa using inside child inLine)
  · rcases origin node member with ⟨_, outside⟩ | ⟨line, paragraph, _⟩
    · exact outside
    · exact isInline_paragraph paragraph

theorem givesSound_blocks (quote : name = "blockquote" ∨ name = "callout")
    (attrs : Document.Attributes) (sound : ∀ child ∈ children, Sound context child) :
    GivesSound context (do
      let content ← standardSchema.wrapInline children
      return [← standardSchema.node name attrs content]) := by
  obtain ⟨wrapped, equality, soundWrapped, blocks⟩ := exists_wrapInline sound
  have declared : (standardSchema.nodeSpec? name).isSome := by
    rcases quote with rfl | rfl <;> rfl
  obtain ⟨made, equalityMade⟩ := exists_node name declared attrs wrapped
  have type := Schema.type_node equalityMade
  have content := Schema.content_node equalityMade
  refine givesSound_bind equality (givesSound_bind equalityMade (givesSound_single ?_))
  refine sound_node equalityMade ?_ ?_ ?_ soundWrapped
  · rcases quote with rfl | rfl <;> decide
  · rcases quote with rfl | rfl <;> simp
  · rcases quote with rfl | rfl <;> constructor <;> simp [type, content] <;> simpa using blocks

theorem sound_item (item : name = "listItem" ∨ name = "taskItem")
    (equality : standardSchema.node name attrs children = .ok made) (filled : children ≠ [])
    (sound : ∀ child ∈ children, Sound context child)
    (blocks : ∀ child ∈ children, standardSchema.isInline child = false) :
    Sound context made := by
  have type := Schema.type_node equality
  have content := Schema.content_node equality
  refine sound_node equality ?_ ?_ ?_ sound
  · rcases item with rfl | rfl <;> decide
  · rcases item with rfl | rfl <;> simp
  · rcases item with rfl | rfl <;> constructor <;> simp [type, content, filled] <;>
      simpa using blocks

theorem givesSound_item (item : name = "listItem" ∨ name = "taskItem")
    (attrs : Document.Attributes) (filled : children ≠ [])
    (sound : ∀ child ∈ children, Sound context child)
    (blocks : ∀ child ∈ children, standardSchema.isInline child = false) :
    GivesSound context (do return [← standardSchema.node name attrs children]) := by
  have declared : (standardSchema.nodeSpec? name).isSome := by
    rcases item with rfl | rfl <;> rfl
  obtain ⟨made, equality⟩ := exists_node name declared attrs children
  exact givesSound_bind equality
    (givesSound_single (sound_item item equality filled sound blocks))

theorem givesSound_itemFromMarkdown (node : Markdown.Node)
    (sound : ∀ child ∈ children, Sound context child) :
    GivesSound context (itemFromMarkdown node standardSchema children context) := by
  obtain ⟨wrapped, equality, soundWrapped, blocks⟩ := exists_wrapInline sound
  refine givesSound_bind equality ?_
  by_cases empty : wrapped.isEmpty
  · obtain ⟨bare, equalityBare⟩ := exists_node "paragraph" rfl .empty []
    have soundBare : ∀ child ∈ [bare], Sound context child := by
      simpa using sound_free rfl equalityBare (by simp)
    have blocksBare : ∀ child ∈ [bare], standardSchema.isInline child = false := by
      simpa using isInline_paragraph equalityBare
    simp only [empty, if_true, equalityBare]
    refine givesSound_bind rfl ?_
    split
    · exact givesSound_item (.inr rfl) _ (by simp) soundBare blocksBare
    · exact givesSound_item (.inl rfl) _ (by simp) soundBare blocksBare
  · have filled : wrapped ≠ [] := by simpa using empty
    simp only [empty, Bool.false_eq_true, if_false]
    split
    · exact givesSound_item (.inr rfl) _ filled soundWrapped blocks
    · exact givesSound_item (.inl rfl) _ filled soundWrapped blocks

/-! Lists. -/

theorem exists_mapM_ok {Input Output : Type} {step : Input → Except UnknownType Output}
    {property : Output → Prop} :
    ∀ {inputs : List Input},
      (∀ input ∈ inputs, ∃ output, step input = .ok output ∧ property output) →
      ∃ outputs, inputs.mapM step = .ok outputs ∧ outputs.length = inputs.length ∧
        ∀ output ∈ outputs, property output
  | [], _ => ⟨[], rfl, rfl, by simp⟩
  | input :: rest, succeeds => by
      obtain ⟨output, equality, holds⟩ := succeeds input (by simp)
      obtain ⟨outputs, equalities, length, all⟩ :=
        exists_mapM_ok fun input member => succeeds input (List.mem_cons_of_mem _ member)
      refine ⟨output :: outputs, ?_, by simp [length], by simpa using ⟨holds, all⟩⟩
      rw [List.mapM_cons, equality, equalities]
      rfl

theorem exists_itemToTask {item : Document.Node} (sound : Sound context item) :
    ∃ task, itemToTask standardSchema item = .ok task ∧ Sound context task ∧
      task.type ≠ "listItem" := by
  simp only [itemToTask]
  split
  · next isItem =>
      obtain ⟨task, equality⟩ := exists_node "taskItem" rfl
        (.ofPresent [("checked", .bool false)]) item.content
      obtain ⟨⟨_, nests⟩, below⟩ := Document.Node.conforms_iff.1 sound.conforms
      refine ⟨task, equality, sound_item (.inr rfl) equality ?_ ?_ ?_, ?_⟩
      · exact nests.item (by simp [isItem])
      · intro child member
        refine ⟨below child member, fun inHeading => ?_⟩
        exact (Document.Node.unbroken_iff.1 (sound.unbroken inHeading)).2 child member
      · exact nests.blocks (by simp [isItem])
      · rw [Schema.type_node equality]
        decide
  · next other => exact ⟨item, rfl, sound, other⟩

theorem givesSound_unordered (sound : ∀ child ∈ children, Sound context child) :
    GivesSound context (if children.any fun child => child.type = "taskItem" then do
        let items ← children.mapM (itemToTask standardSchema)
        return [← standardSchema.node "taskList" .empty items]
      else do return [← standardSchema.node "bulletList" .empty children]) := by
  split
  · obtain ⟨tasks, equality, _, all⟩ := exists_mapM_ok fun child member =>
      exists_itemToTask (sound child member)
    obtain ⟨made, equalityMade⟩ := exists_node "taskList" rfl .empty tasks
    refine givesSound_bind equality (givesSound_bind equalityMade (givesSound_single ?_))
    refine sound_node equalityMade (by decide) (by simp) ?_ fun task member => (all task member).1
    have type := Schema.type_node equalityMade
    have content := Schema.content_node equalityMade
    constructor <;> simp [type, content]
    exact fun task member => (all task member).2
  · next noTask =>
      obtain ⟨made, equalityMade⟩ := exists_node "bulletList" rfl .empty children
      refine givesSound_bind equalityMade (givesSound_single ?_)
      refine sound_node equalityMade (by decide) (by simp) ?_ sound
      have type := Schema.type_node equalityMade
      have content := Schema.content_node equalityMade
      constructor <;> simp [type, content]
      simpa using noTask

theorem givesSound_listFromMarkdown (ordered : Bool) (start : Option UInt32) (spread : Bool)
    (items : List Markdown.Node) (sound : ∀ child ∈ children, Sound context child) :
    GivesSound context
      (listFromMarkdown (.list ordered start spread items) standardSchema children context) := by
  cases ordered with
  | true => exact givesSound_free rfl rfl _ sound
  | false => exact givesSound_unordered sound

/-! Tables. -/

def IsRow (row : Document.Node) : Prop :=
  row.type = "tableRow" ∧ ∀ cell ∈ row.content, cell.type ∈ ["tableHeader", "tableCell"]

theorem sound_alignCell {cell : Document.Node} (isCell : cell.type ∈ ["tableHeader", "tableCell"])
    (align : Option Markdown.Align) (sound : Sound context cell) :
    Sound context (alignCell align cell) := by
  obtain ⟨⟨fits, nests⟩, below⟩ := Document.Node.conforms_iff.1 sound.conforms
  have spec : ∃ spec, standardSchema.nodeSpec? cell.type = some spec ∧
      "align" ∈ spec.attrs.map Document.AttributeSpec.name := by
    simp only [List.mem_cons, List.not_mem_nil, or_false] at isCell
    rcases isCell with type | type <;> rw [type] <;> exact ⟨_, rfl, by simp⟩
  refine ⟨Document.Node.conforms_iff.2 ⟨⟨?_, ?_⟩, below⟩, fun inHeading => ?_⟩
  · obtain ⟨spec, declared, align⟩ := spec
    obtain ⟨other, declaredOther, names⟩ := fits.declared
    cases declared.symm.trans declaredOther
    refine ⟨⟨spec, declared, fun name => ?_⟩, fits.marked, fits.marks, fits.ranked, fits.text,
      fits.filled⟩
    simp only [alignCell]
    rw [Document.Attributes.mem_names_insert, names]
    exact ⟨fun either => either.elim (fun equality => equality ▸ align) id, .inr⟩
  · have cellRule := nests.cell isCell
    simp only [List.mem_cons, List.not_mem_nil, or_false] at isCell
    rcases isCell with type | type <;> constructor <;> simp [alignCell, type] <;> exact cellRule
  · obtain ⟨type, unbroken⟩ := Document.Node.unbroken_iff.1 (sound.unbroken inHeading)
    exact Document.Node.unbroken_iff.2 ⟨type, unbroken⟩

theorem sound_alignRow {row : Document.Node} (isRow : IsRow row)
    (align : List (Option Markdown.Align)) (sound : Sound context row) :
    Sound context (alignRow align row) := by
  obtain ⟨type, cells⟩ := isRow
  obtain ⟨⟨fits, nests⟩, below⟩ := Document.Node.conforms_iff.1 sound.conforms
  have soundCells : ∀ cell ∈ (alignRow align row).content, Sound context cell := by
    intro cell member
    obtain ⟨column, bounded, rfl⟩ := List.mem_mapIdx.1 member
    have inside := List.getElem_mem bounded
    refine sound_alignCell (cells _ inside) _ ⟨below _ inside, fun inHeading => ?_⟩
    exact (Document.Node.unbroken_iff.1 (sound.unbroken inHeading)).2 _ inside
  refine ⟨Document.Node.conforms_iff.2 ⟨⟨?_, ?_⟩, fun cell member =>
    (soundCells cell member).conforms⟩, fun inHeading => ?_⟩
  · exact ⟨fits.declared, fits.marked, fits.marks, fits.ranked, fits.text, fits.filled⟩
  · apply Document.Node.nests_of_free
    simp [alignRow, type]
  · refine Document.Node.unbroken_iff.2 ⟨by simp [alignRow, type], fun cell member => ?_⟩
    exact (soundCells cell member).unbroken inHeading

theorem givesSound_table (align : List (Option Markdown.Align)) (rows : List Markdown.Node)
    (isRow : ∀ row ∈ children, IsRow row) (sound : ∀ child ∈ children, Sound context child) :
    GivesSound context (tableFromMarkdown (.table align rows) standardSchema children context) := by
  refine givesSound_free rfl rfl _ fun row member => ?_
  obtain ⟨child, inside, rfl⟩ := List.mem_map.1 member
  exact sound_alignRow (isRow child inside) align (sound child inside)

theorem mem_splitBreaks {piece : List Document.Node} :
    ∀ {nodes : List Document.Node}, piece ∈ splitBreaks nodes → ∀ node ∈ piece, node ∈ nodes
  | [], member, node, inside => by
      simp only [splitBreaks, List.mem_singleton] at member
      simp [member] at inside
  | next :: rest, member, node, inside => by
      simp only [splitBreaks] at member
      split at member
      · rcases List.mem_cons.1 member with rfl | later
        · simp at inside
        · exact List.mem_cons_of_mem _ (mem_splitBreaks later node inside)
      · cases found : splitBreaks rest with
        | nil =>
            simp only [found, List.mem_singleton] at member
            subst member
            simp [List.mem_singleton.1 inside]
        | cons first others =>
            simp only [found, List.mem_cons] at member
            rcases member with rfl | later
            · rcases List.mem_cons.1 inside with rfl | older
              · simp
              · exact List.mem_cons_of_mem _ (mem_splitBreaks (by simp [found]) node older)
            · exact List.mem_cons_of_mem _
                (mem_splitBreaks (by simp [found, later]) node inside)

theorem splitBreaks_ne_nil (nodes : List Document.Node) : splitBreaks nodes ≠ [] := by
  cases nodes with
  | nil => simp [splitBreaks]
  | cons node rest =>
      simp only [splitBreaks]
      split
      · simp
      · split <;> simp

theorem exists_cellFromMarkdown (node : Markdown.Node)
    (sound : ∀ child ∈ children, Sound context child) :
    ∃ cell, cellFromMarkdown node standardSchema children context = .ok [cell] ∧
      Sound context cell ∧ cell.type ∈ ["tableHeader", "tableCell"] := by
  obtain ⟨paragraphs, equality, length, all⟩ : ∃ paragraphs,
      (splitBreaks children).mapM (fun piece => standardSchema.node "paragraph" .empty piece) =
        .ok paragraphs ∧ paragraphs.length = (splitBreaks children).length ∧
      ∀ paragraph ∈ paragraphs, Sound context paragraph ∧ paragraph.type = "paragraph" := by
    refine exists_mapM_ok fun piece member => ?_
    obtain ⟨paragraph, equality⟩ := exists_node "paragraph" rfl .empty piece
    refine ⟨paragraph, equality, sound_free rfl equality fun child inside => ?_,
      Schema.type_node equality⟩
    exact sound child (mem_splitBreaks member child inside)
  have filled : paragraphs ≠ [] := by
    rintro rfl
    exact splitBreaks_ne_nil children (List.length_eq_zero_iff.1 length.symm)
  have cellName : (if isHeaderCell context then "tableHeader" else "tableCell") = "tableHeader" ∨
      (if isHeaderCell context then "tableHeader" else "tableCell") = "tableCell" := by
    split
    · exact .inl rfl
    · exact .inr rfl
  simp only [cellFromMarkdown, equality]
  generalize (if isHeaderCell context then "tableHeader" else "tableCell") = name at cellName ⊢
  have declared : (standardSchema.nodeSpec? name).isSome := by
    rcases cellName with rfl | rfl <;> rfl
  obtain ⟨made, equalityMade⟩ := exists_node name declared .empty paragraphs
  have type := Schema.type_node equalityMade
  have content := Schema.content_node equalityMade
  refine ⟨made, ?_, sound_node equalityMade ?_ ?_ ?_ fun child member => (all child member).1, ?_⟩
  · simp only [bind, Except.bind, equalityMade]
    rfl
  · rcases cellName with rfl | rfl <;> decide
  · rcases cellName with rfl | rfl <;> simp
  · rcases cellName with rfl | rfl <;> constructor <;> simp [type, content, filled] <;>
      exact fun child member => (all child member).2
  · rcases cellName with rfl | rfl <;> simp [type]

/-! Code and headings. -/

theorem givesSound_codeBlock (lang detail : Option String) (value : String) :
    GivesSound context
      (codeBlockFromMarkdown (.code lang detail value) standardSchema children context) := by
  have finish : ∀ content : List Document.Node, (∀ child ∈ content, Sound context child) →
      GivesSound context (do
        return [← standardSchema.node "codeBlock"
          (.ofPresent [("language", Json.nullable .string lang)]) content]) :=
    fun content sound => givesSound_free rfl rfl _ sound
  simp only [codeBlockFromMarkdown]
  by_cases empty : value.isEmpty
  · simp only [empty]
    exact finish [] (by simp)
  · simp only [empty]
    have filled : value ≠ "" := by simpa using empty
    exact finish _ (by simpa using sound_text filled (by simp) List.Pairwise.nil)

theorem givesSound_heading (depth : UInt8) (nodes : List Markdown.Node)
    (inHeading : context.headingLevel.isSome) (sound : ∀ child ∈ children, Sound context child) :
    GivesSound context
      (headingFromMarkdown (.heading depth nodes) standardSchema children context) := by
  have merged : ∀ node ∈ Document.mergeTexts children, Sound context node := by
    refine Document.forall_mem_mergeTexts ?_ sound
    intro node text more found old
    refine ⟨old.conforms.append_text found more, fun inHeading => ?_⟩
    obtain ⟨type, below⟩ := Document.Node.unbroken_iff.1 (old.unbroken inHeading)
    exact Document.Node.unbroken_iff.2 ⟨type, below⟩
  have unbroken : ∀ node ∈ Document.mergeTexts children, node.Unbroken :=
    fun node member => (merged node member).unbroken inHeading
  have bounded : 1 ≤ clampLevel depth.toNat ∧ clampLevel depth.toNat ≤ 6 := by
    simp only [clampLevel]
    omega
  have declared : standardSchema.nodeSpec? "heading" =
      some ⟨"heading", .block, [⟨"level", .int 1⟩]⟩ := rfl
  have equality := Schema.node_of_declared declared
    (.ofPresent [("level", .int (clampLevel depth.toNat))]) (Document.mergeTexts children)
  refine givesSound_bind equality (givesSound_single ?_)
  refine sound_node equality (by decide) (by simp) ?_ merged
  constructor
  · simp [Document.Node.plain]
  · simp [Document.Node.plain]
  · simp [Document.Node.plain]
  · intro _
    exact ⟨clampLevel depth.toNat, rfl, by omega, by omega⟩
  · intro _
    exact Document.Node.unbroken_iff.2 ⟨by simp [Document.Node.plain], unbroken⟩
  · simp [Document.Node.plain]
  · simp [Document.Node.plain]

/-! The walk over the tree. -/

/-- The tables of a tree hold rows, and their rows hold cells. -/
def IsRegular (node : Markdown.Node) : Prop :=
  ∀ part ∈ node.parts, ∀ align rows, part = .table align rows →
    ∀ row ∈ rows, ∃ cells, row = .tableRow cells ∧
      ∀ cell ∈ cells, ∃ children, cell = .tableCell children

theorem givesSound_applyFrom (node : Markdown.Node)
    (heading : node.kind = .heading → context.headingLevel.isSome)
    (table : node.kind = .table → ∀ row ∈ children, IsRow row)
    (sound : ∀ child ∈ children, Sound context child) :
    GivesSound context (Registry.standard.applyFrom context node children) := by
  rw [applyFrom_standard]
  cases node with
  | root _ | paragraph _ | tableRow _ => exact givesSound_free rfl rfl _ sound
  | thematicBreak => exact givesSound_free rfl rfl _ (by simp)
  | heading depth nodes => exact givesSound_heading depth nodes (heading rfl) sound
  | blockquote _ => exact givesSound_blocks (.inl rfl) _ sound
  | callout _ _ => exact givesSound_blocks (.inr rfl) _ sound
  | list ordered start spread items =>
      exact givesSound_listFromMarkdown ordered start spread items sound
  | listItem spread checked nodes => exact givesSound_itemFromMarkdown _ sound
  | code lang detail value =>
      exact givesSound_codeBlock lang detail value
  | table align rows => exact givesSound_table align rows (table rfl) sound
  | tableCell nodes =>
      obtain ⟨cell, equality, soundCell, _⟩ := exists_cellFromMarkdown (.tableCell nodes) sound
      exact ⟨[cell], equality, by simpa using soundCell⟩
  | html _ | yaml _ => exact ⟨children, rfl, sound⟩
  | text value =>
      simp only [Markdown.Node.kind, standardFrom, textFromMarkdown]
      split
      · exact ⟨[], rfl, by simp⟩
      · next filled => exact givesSound_text (by simpa using filled)
  | emphasis _ | strong _ | delete _ => exact givesSound_mark rfl _ sound
  | link _ _ _ => exact givesSound_mark rfl _ sound
  | inlineCode value =>
      simp only [Markdown.Node.kind, standardFrom, codeFromMarkdown]
      split
      · exact ⟨[], rfl, by simp⟩
      · next filled => exact givesSound_code (by simpa using filled)
  | lineBreak =>
      simp only [Markdown.Node.kind, standardFrom, hardBreakFromMarkdown]
      split
      · exact givesSound_text (by decide)
      · next outside =>
        obtain ⟨made, equality⟩ := exists_node "hardBreak" rfl .empty []
        refine givesSound_bind equality (givesSound_single ?_)
        refine sound_node equality (by decide) (by simpa using outside) ?_ (by simp)
        exact Document.Node.nests_of_free (by simp [Schema.type_node equality])
  | image url title alt => exact givesSound_free rfl rfl _ (by simp)

def IsCellRow (node : Markdown.Node) : Prop :=
  ∃ cells, node = .tableRow cells ∧ ∀ cell ∈ cells, ∃ children, cell = .tableCell children

/-- What is known of a node from the markdown node that it was made of. -/
structure ComesFrom (context : Context) (source : Markdown.Node) (node : Document.Node) :
    Prop where
  sound : Sound context node
  cell : source.kind = .tableCell → node.type ∈ ["tableHeader", "tableCell"]
  row : IsCellRow source → IsRow node

theorem exists_fromNodes {nodes : List Markdown.Node}
    (each : ∀ source ∈ nodes, ∀ index, ∃ made,
      Registry.standard.fromNode context index source = .ok made ∧
        ∀ node ∈ made, ComesFrom context source node) :
    ∀ index, ∃ made, Registry.standard.fromNodes context index nodes = .ok made ∧
      ∀ node ∈ made, ∃ source ∈ nodes, ComesFrom context source node := by
  induction nodes with
  | nil =>
      intro index
      exact ⟨[], rfl, by simp⟩
  | cons source rest induction =>
      intro index
      obtain ⟨first, equality, fromFirst⟩ := each source (by simp) index
      obtain ⟨others, equalities, fromRest⟩ :=
        induction (fun other member => each other (List.mem_cons_of_mem _ member)) (index + 1)
      refine ⟨first ++ others, by simp [Registry.fromNodes, equality, equalities], ?_⟩
      intro node member
      rcases List.mem_append.1 member with inFirst | inOthers
      · exact ⟨source, by simp, fromFirst node inFirst⟩
      · obtain ⟨other, inRest, comes⟩ := fromRest node inOthers
        exact ⟨other, List.mem_cons_of_mem _ inRest, comes⟩

theorem Sound.leave {source : Markdown.Node} {index : Nat} {node : Document.Node}
    (sound : Sound (context.enter source index) node) : Sound context node where
  conforms := sound.conforms
  unbroken := by
    intro inHeading
    apply sound.unbroken
    simp [Context.enter, inHeading]

theorem exists_fromNode (source : Markdown.Node) :
    IsRegular source → ∀ (context : Context) (index : Nat), ∃ made,
      Registry.standard.fromNode context index source = .ok made ∧
        ∀ node ∈ made, ComesFrom context source node := by
  induction source using Markdown.Node.children_induction with
  | step source induction =>
      intro regular context index
      obtain ⟨table, below⟩ := Markdown.Node.forall_mem_parts.1 regular
      obtain ⟨children, converted, origin⟩ := exists_fromNodes
        (fun child member => induction child member (below child member)
          (context.enter source index)) 0
      have sound : ∀ child ∈ children, Sound (context.enter source index) child := by
        intro child member
        obtain ⟨_, _, comes⟩ := origin child member
        exact comes.sound
      have heading : source.kind = .heading →
          (context.enter source index).headingLevel.isSome := by
        cases source <;> simp [Markdown.Node.kind, Context.enter, Context.levelOf?]
      have rows : source.kind = .table → ∀ row ∈ children, IsRow row := by
        intro isTable row member
        obtain ⟨child, inside, comes⟩ := origin row member
        cases source with
        | table align rows => exact comes.row (table align rows rfl child inside)
        | _ => cases isTable
      obtain ⟨made, equality, soundMade⟩ := givesSound_applyFrom source heading rows sound
      rw [fromNode_of_fromNodes converted]
      refine ⟨made, equality, fun node member => ⟨(soundMade node member).leave, ?_, ?_⟩⟩
      · intro isCell
        cases source with
        | tableCell nodes =>
            obtain ⟨cell, equalityCell, _, type⟩ :=
              exists_cellFromMarkdown (.tableCell nodes) sound
            rw [applyFrom_standard] at equality
            cases equalityCell.symm.trans equality
            rwa [List.mem_singleton.1 member]
        | _ => cases isCell
      · rintro ⟨cells, rfl, isCell⟩
        cases equality
        rw [List.mem_singleton.1 member]
        refine ⟨rfl, fun cell inside => ?_⟩
        obtain ⟨child, inCells, comes⟩ := origin cell inside
        obtain ⟨nodes, rfl⟩ := isCell child inCells
        exact comes.cell rfl

/-- A markdown tree whose tables hold rows of cells always converts, and to a document that conforms
to the schema of the standard types. -/
theorem toDocument_conforms (children : List Markdown.Node)
    (regular : ∀ child ∈ children, ∀ part ∈ child.parts, ∀ align rows,
      part = .table align rows → ∀ row ∈ rows, ∃ cells, row = .tableRow cells ∧
        ∀ cell ∈ cells, ∃ nodes, cell = .tableCell nodes) :
    ∃ document, Registry.standard.toDocument children = .ok document ∧
      ∀ part ∈ document.parts,
        part.Fits Registry.standard.schema ∧ part.Nests Registry.standard.schema := by
  have regularRoot : IsRegular (.root children) :=
    Markdown.Node.forall_mem_parts.2 ⟨by simp, regular⟩
  obtain ⟨made, equality, origin⟩ := exists_fromNode (.root children) regularRoot .top 0
  have sound : ∀ node ∈ made, Sound .top node := fun node member => (origin node member).sound
  obtain ⟨document, equalityDocument⟩ := exists_node "doc" rfl .empty made
  have wrapped := sound_free rfl equalityDocument sound
  rw [Registry.toDocument, equality]
  match made, sound, equalityDocument with
  | [node], sound, equalityDocument =>
      by_cases isDoc : node.type = "doc"
      · exact ⟨node, by simp [isDoc], (sound node (by simp)).conforms⟩
      · refine ⟨document, ?_, wrapped.conforms⟩
        simp only [isDoc, if_false]
        exact equalityDocument
  | [], _, equalityDocument => exact ⟨document, equalityDocument, wrapped.conforms⟩
  | _ :: _ :: _, _, equalityDocument => exact ⟨document, equalityDocument, wrapped.conforms⟩

theorem toDocument_conforms_table :
    let table : Markdown.Node :=
      .table [some .left] [.tableRow [.tableCell [.lineBreak, .thematicBreak]]]
    (∀ child ∈ [Markdown.Node.heading 9 [.strong [table]]], ∀ part ∈ child.parts,
      ∀ align rows, part = .table align rows → ∀ row ∈ rows, ∃ cells, row = .tableRow cells ∧
        ∀ cell ∈ cells, ∃ nodes, cell = .tableCell nodes) ∧
      ∃ document, Registry.standard.toDocument [.heading 9 [.strong [table]]] = .ok document ∧
        ∀ part ∈ document.parts,
          part.Fits Registry.standard.schema ∧ part.Nests Registry.standard.schema := by
  intro table
  have regular : ∀ child ∈ [Markdown.Node.heading 9 [.strong [table]]], ∀ part ∈ child.parts,
      ∀ align rows, part = .table align rows → ∀ row ∈ rows, ∃ cells, row = .tableRow cells ∧
        ∀ cell ∈ cells, ∃ nodes, cell = .tableCell nodes := by
    simp [table, Markdown.Node.parts, Markdown.Node.partsOf]
  exact ⟨regular, toDocument_conforms _ regular⟩

end EditorMarkdown.Conversion
