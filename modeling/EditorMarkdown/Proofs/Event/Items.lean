import EditorMarkdown.Proofs.Event.Translation

/-!
Items of lists, tight and loose. The line of text in a tight item stands in it directly and is put
in a paragraph when the item is closed; a loose item has the paragraph as a construct of its own.
The two readings are the same just if there is no HTML in the line but in other constructs: the node
of inline HTML is no inline node, so that it parts the line of a tight item.
-/

namespace EditorMarkdown

open Markdown (Node mergeTexts mem_mergeTexts wrapInline)

def Leaf.isInline : Leaf → Bool
  | .text _ | .code _ | .inlineHtml _ | .softBreak | .hardBreak => true
  | .html _ | .rule | .task _ | .other => false

def Tag.isInline : Tag → Bool
  | .emphasis | .strong | .strike | .link _ _ | .image _ _ => true
  | _ => false

inductive Event.InlineRun : List Event → Prop
  | nil : InlineRun []
  | leaf {content : Leaf} (inline : content.isInline) {rest : List Event} (run : InlineRun rest) :
      InlineRun (.leaf content :: rest)
  | enclosed {tag : Tag} (inline : tag.isInline) {inner rest : List Event}
      (inside : InlineRun inner) (run : InlineRun rest) :
      InlineRun (.enter tag :: (inner ++ .leave :: rest))

def Event.itemOf (events : List Event) : List Event := .enter .item :: (events ++ [.leave])

def Event.paragraphOf (events : List Event) : List Event :=
  .enter .paragraph :: (events ++ [.leave])

/-! The trees of a line of text. -/

/-- What an item or a paragraph has to know of the trees of a line. -/
structure Tree.IsLine (trees : List Tree) : Prop where
  untasked : Tree.tasksOf trees = []
  unwrapped : trees.any Tree.isParagraph = false
  phrasing : ∀ node ∈ Tree.nodesOf trees, node.isInline ∨ node.kind = .html

theorem Tree.IsLine.cons {tree : Tree} {trees : List Tree} (untasked : tree.tasks = [])
    (unwrapped : tree.isParagraph = false)
    (phrasing : ∀ node ∈ tree.nodes, node.isInline ∨ node.kind = .html) (line : IsLine trees) :
    IsLine (tree :: trees) where
  untasked := by rw [tasksOf, untasked, line.untasked]; rfl
  unwrapped := by rw [List.any_cons, unwrapped, line.unwrapped]; rfl
  phrasing node member := by
    rw [nodesOf, List.mem_append] at member
    exact member.elim (phrasing node) (line.phrasing node)

theorem Leaf.phrasing {content : Leaf} (inline : content.isInline) :
    ∀ node ∈ content.nodes, node.isInline ∨ node.kind = .html := by
  cases content with
  | inlineHtml value =>
      cases breaks : Builder.isBreakTag value <;> simp [nodes, breaks, Node.isInline, Node.kind]
  | text | code | softBreak | hardBreak => simp [nodes, Node.isInline]
  | html | rule | task | other => cases inline

theorem Tree.enclose_phrasing {tag : Tag} (inline : tag.isInline) (children : List Tree)
    (inner : List Node) : ∀ node ∈ enclose children inner tag, node.isInline := by
  cases tag with
  | emphasis | strong | strike | link | image => simp [enclose, Node.isInline]
  | _ => cases inline

theorem Event.InlineRun.exists_trees {events : List Event} (run : InlineRun events) :
    ∃ trees, Tree.flattenAll trees = events ∧ Tree.IsLine trees := by
  induction run with
  | nil => exact ⟨[], rfl, rfl, rfl, by simp [Tree.nodesOf]⟩
  | @leaf content inline _ _ induction =>
      obtain ⟨trees, rfl, line⟩ := induction
      have untasked : (Tree.leaf content).tasks = [] := by
        cases content <;> first | rfl | cases inline
      exact ⟨.leaf content :: trees, rfl, line.cons untasked rfl (Leaf.phrasing inline)⟩
  | @enclosed tag inline _ _ _ _ inside after =>
      obtain ⟨children, rfl, lineInside⟩ := inside
      obtain ⟨trees, rfl, line⟩ := after
      have untasked : (Tree.node tag children).tasks = Tree.tasksOf children := by
        cases tag <;> first | rfl | cases inline
      have unwrapped : (Tree.node tag children).isParagraph = false := by
        cases tag <;> first | rfl | cases inline
      refine ⟨.node tag children :: trees, by simp, line.cons ?_ unwrapped fun node member => ?_⟩
      · rw [untasked, lineInside.untasked]
      · exact .inl (Tree.enclose_phrasing inline children _ node member)

theorem Tree.IsLine.translate_phrasing {trees : List Tree} (line : IsLine trees) :
    ∀ node ∈ translate trees, node.isInline ∨ node.kind = .html := by
  intro node member
  rcases mem_mergeTexts member with inNodes | text
  · exact line.phrasing node inNodes
  · cases node <;> simp_all [Node.kind, Node.isInline]

/-! Items. -/

theorem Builder.foldl_itemOf (trees : List Tree) (builder : Builder) :
    (Event.itemOf (Tree.flattenAll trees)).foldl step builder =
      builder.push (.listItem (trees.any Tree.isParagraph) (Tree.tasksOf trees).getLast?
        (wrapInline (Tree.translate trees))) := by
  obtain ⟨stack, root⟩ := builder
  -- entering an item changes nothing in the frames around it, whatever they are
  obtain ⟨added, reached, collects⟩ := absorbs_trees trees (.item none false) [] stack root
  calc
    (Event.itemOf (Tree.flattenAll trees)).foldl step ⟨stack, root⟩ =
        ((Tree.flattenAll trees).foldl step ⟨⟨.item none false, []⟩ :: stack, root⟩).leave := by
      simp [Event.itemOf, step, enter, frameOf]
    _ = pushAll (closed added.reverse ((Frame.item none false).after trees)) ⟨stack, root⟩ := by
      rw [reached]
      rfl
    _ = _ := by
      rw [collects rfl]
      simp [Frame.after, closed, pushAll, Tree.translate, mergeTexts_eq]

theorem wrapInline_eq_singleton_iff {nodes : List Node} (filled : nodes ≠ [])
    (phrasing : ∀ node ∈ nodes, node.isInline ∨ node.kind = .html) :
    wrapInline nodes = [.paragraph nodes] ↔ ∀ node ∈ nodes, node.kind ≠ .html := by
  constructor
  · intro one node member html
    have block : node.isInline = false := by cases node <;> simp_all [Node.kind, Node.isInline]
    have named := Markdown.mem_wrapInline_of_block member block
    rw [one, List.mem_singleton] at named
    rw [named] at html
    cases html
  · intro bare
    exact Markdown.wrapInline_of_inline filled fun node member =>
      (phrasing node member).resolve_right (bare node member)

/-- A line of text becomes the one paragraph of a loose item. It becomes that of a tight item just
if none of its nodes is HTML; otherwise the HTML stands between paragraphs. -/
theorem Event.InlineRun.item_tight_loose {events : List Event} (run : InlineRun events)
    (yields : fold events ≠ []) (builder : Builder) :
    (itemOf events).foldl Builder.step builder =
        builder.push (.listItem false none (wrapInline (fold events))) ∧
      (itemOf (paragraphOf events)).foldl Builder.step builder =
        builder.push (.listItem true none [.paragraph (fold events)]) ∧
      (wrapInline (fold events) = [.paragraph (fold events)] ↔
        ∀ node ∈ fold events, node.kind ≠ .html) := by
  obtain ⟨trees, rfl, line⟩ := run.exists_trees
  rw [fold_flattenAll] at yields ⊢
  refine ⟨?tight, ?loose, wrapInline_eq_singleton_iff yields line.translate_phrasing⟩
  case tight =>
    rw [Builder.foldl_itemOf, line.unwrapped, line.untasked]
    rfl
  case loose =>
    have flat : paragraphOf (Tree.flattenAll trees) =
        Tree.flattenAll [.node .paragraph trees] := by simp [paragraphOf]
    have tasks : Tree.tasksOf [.node .paragraph trees] = [] := by
      simp [Tree.tasksOf, Tree.tasks, line.untasked]
    rw [flat, Builder.foldl_itemOf, tasks]
    rfl

def emphasized : List Event :=
  [.leaf (.text "a "), .enter .emphasis, .leaf (.text "b"), .leave]

theorem Event.InlineRun.item_tight_loose_emphasized :
    InlineRun emphasized ∧ fold emphasized ≠ [] ∧
      (itemOf emphasized).foldl Builder.step .empty =
        ⟨[], [.listItem false none [.paragraph [.text "a ", .emphasis [.text "b"]]]]⟩ ∧
      (itemOf (paragraphOf emphasized)).foldl Builder.step .empty =
        ⟨[], [.listItem true none [.paragraph [.text "a ", .emphasis [.text "b"]]]]⟩ := by
  have run : InlineRun emphasized := .leaf rfl (.enclosed rfl (.leaf rfl .nil) .nil)
  have folded : fold emphasized = [.text "a ", .emphasis [.text "b"]] := rfl
  have yields : fold emphasized ≠ [] := by simp [folded]
  obtain ⟨tight, loose, same⟩ := run.item_tight_loose yields .empty
  have bare : ∀ node ∈ fold emphasized, node.kind ≠ .html := by simp [folded, Node.kind]
  refine ⟨run, yields, ?_, ?_⟩
  · rw [tight, same.2 bare, folded]
    rfl
  · rw [loose, folded]
    rfl

/-- The line `a <b>c` is three blocks in a tight item, with the tag as the second. -/
theorem Event.InlineRun.item_tight_parted :
    ¬ ∀ events, InlineRun events → fold events ≠ [] → ∀ builder : Builder,
      (itemOf events).foldl Builder.step builder =
          builder.push (.listItem false none [.paragraph (fold events)]) ∧
        (itemOf (paragraphOf events)).foldl Builder.step builder =
          builder.push (.listItem true none [.paragraph (fold events)]) := by
  intro same
  let events : List Event := [.leaf (.text "a "), .leaf (.inlineHtml "<b>"), .leaf (.text "c")]
  have run : InlineRun events := .leaf rfl (.leaf rfl (.leaf rfl .nil))
  have folded : fold events = [.text "a ", .html "<b>", .text "c"] := rfl
  have parted : (itemOf events).foldl Builder.step .empty =
      ⟨[], [.listItem false none
        [.paragraph [.text "a "], .html "<b>", .paragraph [.text "c"]]]⟩ := rfl
  have tight := (same events run (by simp [folded]) .empty).1
  rw [parted, folded] at tight
  have blocks := congrArg (fun builder => builder.root.map fun item => item.children.length) tight
  exact absurd blocks (by decide)

end EditorMarkdown
