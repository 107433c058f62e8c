import EditorMarkdown.Proofs.Conversion.Lines

/-!
Blocks that become one markdown node each, which becomes the block again wherever it stands outside
of headings.
-/

namespace EditorMarkdown.Conversion

variable {context : Context}

structure Restored (node : Document.Node) (source : Markdown.Node) : Prop where
  made : Registry.standard.toNodes node = [source]
  unmarked : node.marks = []
  block : standardSchema.isInline node = false
  back : ∀ (context : Context) (index : Nat), context.headingLevel = none →
    Registry.standard.fromNode context index source = .ok [node]

theorem restored_of_hooks {node : Document.Node} {source : Markdown.Node}
    {children : List Document.Node} {hook : FromMarkdown}
    (made : Registry.standard.toNodes node = [source]) (unmarked : node.marks = [])
    (block : standardSchema.isInline node = false) (level : Context.levelOf? source = none)
    (hooked : standardFrom source.kind = some hook)
    (inside : ∀ context : Context, context.headingLevel = none →
      Registry.standard.fromNodes context 0 source.children = .ok children)
    (read : ∀ context, hook source standardSchema children context = .ok [node]) :
    Restored node source where
  made := made
  unmarked := unmarked
  block := block
  back := by
    intro context index outside
    have inner : (context.enter source index).headingLevel = none := by
      simp [Context.enter, level, outside]
    rw [fromNode_standard (inside _ inner) hooked, read]

theorem contentToMarkdown_nil : Registry.standard.contentToMarkdown [] = [] := markedRun_nil _

theorem contentToMarkdown_cons {node : Document.Node} (unmarked : node.marks = [])
    (rest : List Document.Node) :
    Registry.standard.contentToMarkdown (node :: rest) =
      Registry.standard.toNodes node ++ Registry.standard.contentToMarkdown rest := by
  unfold Registry.contentToMarkdown
  rw [Registry.toPieces, unmarked]
  exact markedRun_unmarked _ _ _

theorem contentToMarkdown_map {α : Type} {node : α → Document.Node} {source : α → Markdown.Node}
    {items : List α} (each : ∀ item ∈ items,
      (node item).marks = [] ∧ Registry.standard.toNodes (node item) = [source item]) :
    Registry.standard.contentToMarkdown (items.map node) = items.map source := by
  induction items with
  | nil => exact contentToMarkdown_nil
  | cons item rest induction =>
      obtain ⟨unmarked, made⟩ := each item (by simp)
      have others := induction fun other member => each other (List.mem_cons_of_mem _ member)
      rw [List.map_cons, contentToMarkdown_cons unmarked, made, others]
      rfl

structure AllRestored (blocks : List Document.Node) (sources : List Markdown.Node) : Prop where
  made : Registry.standard.contentToMarkdown blocks = sources
  outside : ∀ block ∈ blocks, standardSchema.isInline block = false
  back : ∀ (context : Context) (index : Nat), context.headingLevel = none →
    Registry.standard.fromNodes context index sources = .ok blocks

theorem allRestored_nil : AllRestored [] [] :=
  ⟨contentToMarkdown_nil, fun _ member => absurd member List.not_mem_nil, fun _ _ _ => rfl⟩

theorem exists_allRestored {blocks : List Document.Node}
    (each : ∀ block ∈ blocks, ∃ source, Restored block source) :
    ∃ sources, AllRestored blocks sources := by
  induction blocks with
  | nil => exact ⟨[], allRestored_nil⟩
  | cons block rest induction =>
      obtain ⟨source, restored⟩ := each block (by simp)
      obtain ⟨sources, others⟩ :=
        induction fun other member => each other (List.mem_cons_of_mem _ member)
      refine ⟨source :: sources, ?_, ?_, ?_⟩
      · rw [contentToMarkdown_cons restored.unmarked, restored.made, others.made]
        rfl
      · intro other member
        rcases List.mem_cons.1 member with rfl | inRest
        · exact restored.block
        · exact others.outside other inRest
      · intro context index outside
        exact fromNodes_cons (restored.back context index outside)
          (others.back context (index + 1) outside)

theorem wrapInline_of_blocks {blocks : List Document.Node}
    (outside : ∀ block ∈ blocks, standardSchema.isInline block = false) :
    standardSchema.wrapInline blocks = .ok blocks := by
  unfold Document.Schema.wrapInline
  induction blocks with
  | nil => rfl
  | cons block rest induction =>
      have others := induction fun other member => outside other (List.mem_cons_of_mem _ member)
      simp only [Document.Schema.wrapRun, outside block (by simp), others]
      rfl

/-! Blocks of lines. -/

theorem toNodes_paragraph (line : List Document.Node) :
    Registry.standard.toNodes (.plain "paragraph" line) =
      if (Registry.standard.contentToMarkdown line).isEmpty then []
      else [.paragraph (Registry.standard.contentToMarkdown line)] :=
  Registry.toNodes_eq _ _

theorem contentToMarkdown_emptyParagraph :
    Registry.standard.contentToMarkdown [.plain "paragraph" []] = [] := by
  rw [contentToMarkdown_cons rfl, toNodes_paragraph, contentToMarkdown_nil]
  rfl

theorem restored_paragraph {line : List Document.Node} (filled : line ≠ [])
    (canonical : CanonicalLine line) :
    Restored (.plain "paragraph" line)
      (.paragraph (Registry.standard.contentToMarkdown line)) := by
  have grouped := grouped_contentToMarkdown canonical
  have made : Registry.standard.toNodes (.plain "paragraph" line) =
      [.paragraph (Registry.standard.contentToMarkdown line)] := by
    rw [toNodes_paragraph]
    simp [grouped.ne_nil filled]
  exact restored_of_hooks made rfl rfl rfl rfl
    (fun _ outside => grouped.fromNodes 0 (.inl outside)) fun _ => rfl

theorem toNodes_heading {level : Nat} (bounded : 1 ≤ level ∧ level ≤ 6)
    (line : List Document.Node) :
    Registry.standard.toNodes (.typed "heading" [("level", .int level)] line) =
      [.heading (UInt8.ofNat level)
        (Markdown.foldBreaks (Registry.standard.contentToMarkdown line))] := by
  obtain rfl | rfl | rfl | rfl | rfl | rfl :
      level = 1 ∨ level = 2 ∨ level = 3 ∨ level = 4 ∨ level = 5 ∨ level = 6 := by omega
  all_goals rfl

theorem headingFromMarkdown_ofNat {level : Nat} (bounded : 1 ≤ level ∧ level ≤ 6)
    (nodes : List Markdown.Node) {line : List Document.Node}
    (merged : Document.mergeTexts line = line) :
    headingFromMarkdown (.heading (UInt8.ofNat level) nodes) standardSchema line context =
      .ok [.typed "heading" [("level", .int level)] line] := by
  simp only [headingFromMarkdown, merged]
  obtain rfl | rfl | rfl | rfl | rfl | rfl :
      level = 1 ∨ level = 2 ∨ level = 3 ∨ level = 4 ∨ level = 5 ∨ level = 6 := by omega
  all_goals rfl

theorem restored_heading {level : Nat} {line : List Document.Node}
    (bounded : 1 ≤ level ∧ level ≤ 6) (canonical : CanonicalLine line) (unbroken : Unbroken line)
    (merged : Merged line) :
    Restored (.typed "heading" [("level", .int level)] line)
      (.heading (UInt8.ofNat level) (Registry.standard.contentToMarkdown line)) := by
  have grouped := grouped_contentToMarkdown canonical
  refine ⟨?_, rfl, rfl, fun context index outside => ?_⟩
  · rw [toNodes_heading bounded, grouped.foldBreaks unbroken merged]
  · have converted : Registry.standard.fromNodes
        (context.enter (.heading (UInt8.ofNat level) (Registry.standard.contentToMarkdown line))
          index) 0
        (Registry.standard.contentToMarkdown line) = .ok line :=
      grouped.fromNodes 0 (.inr unbroken)
    rw [fromNode_standard converted rfl]
    exact headingFromMarkdown_ofNat bounded _ (mergeTexts_of_merged canonical merged)

/-! Blocks of blocks. -/

theorem AllRestored.restored {blocks : List Document.Node} {sources : List Markdown.Node}
    {node : Document.Node} {source : Markdown.Node} {hook : FromMarkdown}
    (inside : AllRestored blocks sources)
    (applied : Registry.standard.applyTo (.node node) sources = [source])
    (content : node.content = blocks) (children : source.children = sources)
    (unmarked : node.marks = []) (block : standardSchema.isInline node = false)
    (level : Context.levelOf? source = none) (hooked : standardFrom source.kind = some hook)
    (read : ∀ context, hook source standardSchema blocks context = .ok [node]) :
    Restored node source := by
  have made : Registry.standard.toNodes node = [source] := by
    rw [Registry.toNodes_eq, content, inside.made, applied]
  refine restored_of_hooks made unmarked block level hooked (fun context outside => ?_) read
  rw [children]
  exact inside.back context 0 outside

theorem restored_blockquote {blocks : List Document.Node} {sources : List Markdown.Node}
    (inside : AllRestored blocks sources) :
    Restored (.plain "blockquote" blocks) (.blockquote sources) := by
  refine inside.restored rfl rfl rfl rfl rfl rfl rfl fun context => ?_
  simp only [blockquoteFromMarkdown, wrapInline_of_blocks inside.outside]
  rfl

theorem restored_callout (kind : Markdown.CalloutKind) {blocks : List Document.Node}
    {sources : List Markdown.Node} (inside : AllRestored blocks sources) :
    Restored (.typed "callout" [("kind", .string kind.name)] blocks)
      (.callout kind sources) := by
  have applied : Registry.standard.applyTo
      (.node (.typed "callout" [("kind", .string kind.name)] blocks)) sources =
        [.callout kind sources] := by
    cases kind <;> rfl
  refine inside.restored applied rfl rfl rfl rfl rfl rfl fun context => ?_
  simp only [calloutFromMarkdown, wrapInline_of_blocks inside.outside]
  cases kind <;> rfl

/-! Blocks without blocks and lines. -/

theorem restored_horizontalRule : Restored (.plain "horizontalRule" []) .thematicBreak :=
  restored_of_hooks rfl rfl rfl rfl rfl (fun _ _ => rfl) fun _ => rfl

def codeContent (value : String) : List Document.Node :=
  if value.isEmpty then [] else [.ofText value []]

theorem textContents_codeContent (value : String) :
    Document.Node.textContents (codeContent value) = value := by
  unfold codeContent
  split
  · next empty => simpa [Document.Node.textContents] using empty.symm
  · simp [Document.Node.textContents, Document.Node.ofText, Document.Node.plain,
      Document.Node.textContent]

theorem restored_codeBlock {language : Option String} (given : language ≠ some "")
    (value : String) :
    Restored
      (.typed "codeBlock" [("language", Json.nullable .string language)] (codeContent value))
      (.code language none value) := by
  have made : Registry.standard.toNodes
      (.typed "codeBlock" [("language", Json.nullable .string language)] (codeContent value)) =
        [.code language none value] := by
    calc
      Registry.standard.toNodes (.typed "codeBlock"
            [("language", Json.nullable .string language)] (codeContent value)) =
          [.code (language.filter fun language => !language.isEmpty) none
            ("" ++ Document.Node.textContents (codeContent value))] := by cases language <;> rfl
      _ = [.code language none value] := by
        rw [textContents_codeContent, String.empty_append]
        cases language with
        | none => rfl
        | some language => simp_all
  refine restored_of_hooks made rfl rfl rfl rfl (fun _ _ => rfl) fun context => ?_
  unfold codeContent
  by_cases empty : value.isEmpty
  · simp only [codeBlockFromMarkdown, empty]
    cases language <;> rfl
  · simp only [codeBlockFromMarkdown, empty]
    cases language <;> rfl

/-! Lists. -/

theorem restored_item (checked : Option Bool) {blocks : List Document.Node}
    {sources : List Markdown.Node} (filled : blocks ≠ []) (inside : AllRestored blocks sources) :
    Restored (itemOf checked blocks) (.listItem false checked sources) := by
  have isFilled : blocks.isEmpty = false := by simpa using filled
  cases checked with
  | none =>
      refine inside.restored rfl rfl rfl rfl rfl rfl rfl fun context => ?_
      simp only [itemFromMarkdown, wrapInline_of_blocks inside.outside, bind, Except.bind,
        isFilled]
      rfl
  | some checked =>
      refine inside.restored rfl rfl rfl rfl rfl rfl rfl fun context => ?_
      simp only [itemFromMarkdown, wrapInline_of_blocks inside.outside, bind, Except.bind,
        isFilled]
      rfl

/-- The empty paragraph has no markdown, and the item gets it back as an item without children. -/
theorem restored_emptyItem (checked : Option Bool) :
    Restored (itemOf checked [.plain "paragraph" []]) (.listItem false checked []) := by
  have made : Registry.standard.toNodes (itemOf checked [.plain "paragraph" []]) =
      [.listItem false checked []] := by
    have content : (itemOf checked [.plain "paragraph" []]).content =
        [.plain "paragraph" []] := by
      cases checked <;> rfl
    rw [Registry.toNodes_eq, content, contentToMarkdown_emptyParagraph]
    cases checked <;> rfl
  cases checked with
  | none => exact restored_of_hooks made rfl rfl rfl rfl (fun _ _ => rfl) fun _ => rfl
  | some checked => exact restored_of_hooks made rfl rfl rfl rfl (fun _ _ => rfl) fun _ => rfl

theorem restored_bulletList {items : List Document.Node} {sources : List Markdown.Node}
    (inside : AllRestored items sources) (untasked : ∀ item ∈ items, item.type = "listItem") :
    Restored (.plain "bulletList" items) (.list false none false sources) := by
  have free : (items.any fun item => item.type = "taskItem") = false := by
    rw [List.any_eq_false]
    intro item member
    simp [untasked item member]
  refine inside.restored rfl rfl rfl rfl rfl rfl rfl fun context => ?_
  simp only [listFromMarkdown, free]
  rfl

theorem mapM_itemToTask {items : List Document.Node}
    (tasks : ∀ item ∈ items, item.type = "taskItem") :
    items.mapM (itemToTask standardSchema) = .ok items := by
  induction items with
  | nil => rfl
  | cons item rest induction =>
      have others := induction fun other member => tasks other (List.mem_cons_of_mem _ member)
      have kept : itemToTask standardSchema item = .ok item := by
        simp [itemToTask, tasks item (by simp)]
      rw [List.mapM_cons, kept, others]
      rfl

theorem restored_taskList {items : List Document.Node} {sources : List Markdown.Node}
    (inside : AllRestored items sources) (filled : items ≠ [])
    (tasks : ∀ item ∈ items, item.type = "taskItem") :
    Restored (.plain "taskList" items) (.list false none false sources) := by
  have found : (items.any fun item => item.type = "taskItem") = true := by
    obtain ⟨item, member⟩ := List.exists_mem_of_ne_nil items filled
    exact List.any_eq_true.2 ⟨item, member, by simp [tasks item member]⟩
  refine inside.restored rfl rfl rfl rfl rfl rfl rfl fun context => ?_
  simp only [listFromMarkdown, found, mapM_itemToTask tasks]
  rfl

theorem orderedStart_toNat (start : UInt32) (items : List Document.Node) :
    orderedStart (.node (.typed "orderedList" [("start", .int start.toNat)] items)) = start := by
  have bounded : start.toNat < 4294967296 := start.toNat_lt
  have found : ((Subject.node
      (.typed "orderedList" [("start", .int start.toNat)] items)).attr? "start").bind
        Json.Value.natural? = some start.toNat := by
    calc
      _ = Json.Value.natural? (.int start.toNat) := rfl
      _ = some start.toNat := by
        simp only [Json.Value.natural?, Int.toNat_natCast]
        rw [if_pos]
        simp only [Bool.and_eq_true, decide_eq_true_eq]
        omega
  simp [orderedStart, found, bounded]

theorem restored_orderedList (start : UInt32) {items : List Document.Node}
    {sources : List Markdown.Node} (inside : AllRestored items sources) :
    Restored (.typed "orderedList" [("start", .int start.toNat)] items)
      (.list true (some start) false sources) := by
  have applied : Registry.standard.applyTo
      (.node (.typed "orderedList" [("start", .int start.toNat)] items)) sources =
        [.list true (some start) false sources] := by
    calc
      Registry.standard.applyTo
            (.node (.typed "orderedList" [("start", .int start.toNat)] items)) sources =
          [.list true (some (orderedStart
            (.node (.typed "orderedList" [("start", .int start.toNat)] items)))) false sources] :=
        rfl
      _ = [.list true (some start) false sources] := by rw [orderedStart_toNat]
  exact inside.restored applied rfl rfl rfl rfl rfl rfl fun _ => rfl

/-! Documents. -/

theorem toDocument_of_fromNodes {sources : List Markdown.Node} {blocks : List Document.Node}
    (converted : Registry.standard.fromNodes (Context.top.enter (.root sources) 0) 0 sources =
      .ok blocks) : Registry.standard.toDocument sources = .ok (.plain "doc" blocks) := by
  have root : Registry.standard.fromNode .top 0 (.root sources) = .ok [.plain "doc" blocks] := by
    rw [fromNode_standard converted rfl]
    rfl
  rw [Registry.toDocument, root]
  rfl

theorem toMarkdown_doc (blocks : List Document.Node) :
    Registry.standard.toMarkdown (.plain "doc" blocks) =
      Registry.standard.contentToMarkdown blocks := by
  calc
    Registry.standard.toMarkdown (.plain "doc" blocks) =
        Registry.spliceRoots [.root (Registry.standard.contentToMarkdown blocks)] := by
      rw [Registry.toMarkdown, Registry.toNodes_eq]
      rfl
    _ = Registry.standard.contentToMarkdown blocks := List.append_nil _

end EditorMarkdown.Conversion
