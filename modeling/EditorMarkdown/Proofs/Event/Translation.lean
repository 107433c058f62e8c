import EditorMarkdown.Event.Builder
import EditorMarkdown.Proofs.Markdown.Merging
import Mathlib.Logic.ExistsUnique

/-!
The builder translates trees of events. A balanced run of events lists the trees of just one reading
of it; what the builder makes of the run is what a recursion over those trees makes of them. The
recursion knows no stack: what an item or a literal block needs to know of the trees in it is read
off them.
-/

namespace EditorMarkdown

open Markdown (Node pushMerging pushMerging_eq mergeTexts wrapInline)

/-! Balanced runs. -/

/-- Every construct that is entered is left, and no other. -/
inductive Event.Balanced : List Event → Prop
  | nil : Balanced []
  | leaf (content : Leaf) {rest : List Event} (balanced : Balanced rest) :
      Balanced (.leaf content :: rest)
  | enclosed (tag : Tag) {inner rest : List Event} (inside : Balanced inner)
      (balanced : Balanced rest) :
      Balanced (.enter tag :: (inner ++ .leave :: rest))

theorem Event.Balanced.append {first second : List Event} (balanced : Balanced first)
    (following : Balanced second) : Balanced (first ++ second) := by
  induction balanced with
  | nil => exact following
  | leaf content _ induction => exact .leaf content induction
  | @enclosed tag inner rest inside _ _ induction =>
      simpa using Balanced.enclosed tag inside induction

mutual
theorem Tree.balanced_flatten : (tree : Tree) → Event.Balanced tree.flatten
  | .leaf content => .leaf content .nil
  | .node tag children => .enclosed tag (Tree.balanced_flattenAll children) .nil

theorem Tree.balanced_flattenAll : (trees : List Tree) → Event.Balanced (Tree.flattenAll trees)
  | [] => .nil
  | tree :: rest => (Tree.balanced_flatten tree).append (Tree.balanced_flattenAll rest)
end

theorem Event.Balanced.exists_trees {events : List Event} (balanced : Balanced events) :
    ∃ trees, Tree.flattenAll trees = events := by
  induction balanced with
  | nil => exact ⟨[], rfl⟩
  | leaf content _ induction =>
      obtain ⟨trees, rfl⟩ := induction
      exact ⟨.leaf content :: trees, rfl⟩
  | enclosed tag _ _ inside after =>
      obtain ⟨children, rfl⟩ := inside
      obtain ⟨trees, rfl⟩ := after
      exact ⟨.node tag children :: trees, by simp⟩

/-- Whether a run of events is at its end or at the end of the construct around it. -/
def Event.ends : List Event → Bool
  | [] | .leave :: _ => true
  | _ => false

theorem Tree.ends_flattenAll_cons (tree : Tree) (rest : List Tree) (after : List Event) :
    Event.ends (flattenAll (tree :: rest) ++ after) = false := by
  cases tree <;> rfl

mutual
theorem Tree.flatten_append_cancel {after afterOther : List Event} : (tree other : Tree) →
    tree.flatten ++ after = other.flatten ++ afterOther → tree = other ∧ after = afterOther
  | .leaf _, .leaf _, same => by
      simp only [flatten_leaf, List.singleton_append, List.cons.injEq, Event.leaf.injEq] at same
      exact ⟨congrArg Tree.leaf same.1, same.2⟩
  | .node tag children, .node tagOther childrenOther, same => by
      simp only [flatten_node, List.cons_append, List.append_assoc, List.nil_append,
        List.cons.injEq, Event.enter.injEq] at same
      obtain ⟨rfl, sameAfter⟩ := same
      obtain ⟨rfl, rest⟩ :=
        Tree.flattenAll_append_cancel children childrenOther rfl rfl sameAfter
      exact ⟨rfl, (List.cons.inj rest).2⟩
  | .leaf _, .node _ _, same => by simp at same
  | .node _ _, .leaf _, same => by simp at same

theorem Tree.flattenAll_append_cancel {after afterOther : List Event} :
    (trees others : List Tree) → Event.ends after = true → Event.ends afterOther = true →
    flattenAll trees ++ after = flattenAll others ++ afterOther →
      trees = others ∧ after = afterOther
  | [], [], _, _, same => ⟨rfl, same⟩
  | tree :: rest, other :: others, ends, endsOther, same => by
      simp only [flattenAll_cons, List.append_assoc] at same
      obtain ⟨rfl, sameRest⟩ := Tree.flatten_append_cancel tree other same
      obtain ⟨rfl, sameAfter⟩ := Tree.flattenAll_append_cancel rest others ends endsOther sameRest
      exact ⟨rfl, sameAfter⟩
  | [], other :: others, ends, _, same => by
      have goesOn := Tree.ends_flattenAll_cons other others afterOther
      rw [← same, flattenAll_nil, List.nil_append, ends] at goesOn
      cases goesOn
  | tree :: rest, [], _, endsOther, same => by
      have goesOn := Tree.ends_flattenAll_cons tree rest after
      rw [same, flattenAll_nil, List.nil_append, endsOther] at goesOn
      cases goesOn
end

theorem Tree.flattenAll_injective {trees others : List Tree}
    (same : flattenAll trees = flattenAll others) : trees = others :=
  (flattenAll_append_cancel trees others rfl rfl (congrArg (fun events => events ++ []) same)).1

theorem Event.balanced_iff {events : List Event} :
    Balanced events ↔ ∃! trees, Tree.flattenAll trees = events := by
  constructor
  · intro balanced
    obtain ⟨trees, rfl⟩ := balanced.exists_trees
    exact ⟨trees, rfl, fun others same => Tree.flattenAll_injective same⟩
  · rintro ⟨trees, rfl, -⟩
    exact Tree.balanced_flattenAll trees

/-! The recursion over trees. -/

def Leaf.nodes : Leaf → List Node
  | .text value => [.text value]
  | .code value => [.inlineCode value]
  | .html value => [.html (String.ofList (Text.trimEndWhile (· = '\n') value.toList))]
  | .inlineHtml value => [if Builder.isBreakTag value then .lineBreak else .html value]
  | .softBreak => [.text "\n"]
  | .hardBreak => [.lineBreak]
  | .rule => [.thematicBreak]
  | .task _ | .other => []

/-- What a leaf adds to a literal block; an HTML block holds lines of HTML as well. -/
def Leaf.literal (inHtml : Bool) : Leaf → String
  | .text value => value
  | .softBreak => "\n"
  | .html value => if inHtml then value else ""
  | _ => ""

namespace Tree

def literal (inHtml : Bool) : List Tree → String
  | [] => ""
  | .leaf content :: rest => content.literal inHtml ++ literal inHtml rest
  | .node _ _ :: rest => literal inHtml rest

def isParagraph : Tree → Bool
  | .node .paragraph _ => true
  | _ => false

mutual
/-- The task markers in a tree that belong to the item around it. -/
def tasks : Tree → List Bool
  | .leaf (.task checked) => [checked]
  | .leaf _ => []
  | .node .item _ => []
  | .node _ children => tasksOf children

def tasksOf : List Tree → List Bool
  | [] => []
  | tree :: rest => tree.tasks ++ tasksOf rest
end

def value (inHtml : Bool) (trees : List Tree) : String :=
  let text := literal inHtml trees
  if text.toList.getLast? = some '\n' then String.ofList text.toList.dropLast else text

mutual
/-- Whether a paragraph starts directly in an item of a list, given a tree in the list. What has no
node of its own leaves its items to the list. -/
def isLoose : Tree → Bool
  | .node .item children => children.any isParagraph
  | .node .other children => anyLoose children
  | _ => false

def anyLoose : List Tree → Bool
  | [] => false
  | tree :: rest => tree.isLoose || anyLoose rest
end

/-- The nodes that a construct stands for, given the trees in it and the nodes of those trees. -/
def enclose (children : List Tree) (inner : List Node) : Tag → List Node
  | .paragraph => [.paragraph (mergeTexts inner)]
  | .heading depth => [.heading depth (mergeTexts inner)]
  | .quote => [.blockquote (mergeTexts inner)]
  | .list start =>
      [.list start.isSome (start.map fun n => UInt32.ofNat (min n 4294967295))
        (anyLoose children) (mergeTexts inner)]
  | .item =>
      [.listItem (children.any isParagraph) (tasksOf children).getLast?
        (wrapInline (mergeTexts inner))]
  | .code none => [.code none none (value false children)]
  | .code (some info) =>
      [.code (Builder.splitInfo info).1 (Builder.splitInfo info).2 (value false children)]
  | .html => [.html (value true children)]
  | .metadata => [.yaml (value false children)]
  | .table align => [.table align (mergeTexts inner)]
  | .head | .row => [.tableRow (mergeTexts inner)]
  | .cell => [.tableCell (mergeTexts inner)]
  | .emphasis => [.emphasis (mergeTexts inner)]
  | .strong => [.strong (mergeTexts inner)]
  | .strike => [.delete (mergeTexts inner)]
  | .link url title => [.link url (Builder.nonEmpty title) (mergeTexts inner)]
  | .image url title =>
      [.image url (Builder.nonEmpty title) (Builder.plainTexts (mergeTexts inner))]
  | .other => inner

mutual
def nodes : Tree → List Node
  | .leaf content => content.nodes
  | .node tag children => enclose children (nodesOf children) tag

def nodesOf : List Tree → List Node
  | [] => []
  | tree :: rest => tree.nodes ++ nodesOf rest
end

theorem literal_append (inHtml : Bool) (first second : List Tree) :
    literal inHtml (first ++ second) = literal inHtml first ++ literal inHtml second := by
  induction first with
  | nil => simp [literal]
  | cons tree rest induction => cases tree <;> simp [literal, induction, String.append_assoc]

theorem tasksOf_append (first second : List Tree) :
    tasksOf (first ++ second) = tasksOf first ++ tasksOf second := by
  induction first with
  | nil => rfl
  | cons tree rest induction => simp [tasksOf, induction]

theorem nodesOf_append (first second : List Tree) :
    nodesOf (first ++ second) = nodesOf first ++ nodesOf second := by
  induction first with
  | nil => rfl
  | cons tree rest induction => simp [nodesOf, induction]

def translate (trees : List Tree) : List Node := mergeTexts (nodesOf trees)

end Tree

/-! Nodes put behind the nodes of a reversed list. -/

def pushEach (nodes done : List Node) : List Node :=
  nodes.foldl (fun done node => pushMerging node done) done

theorem pushEach_append (first second done : List Node) :
    pushEach (first ++ second) done = pushEach second (pushEach first done) :=
  List.foldl_append

theorem mergeTexts_eq (nodes : List Node) : mergeTexts nodes = (pushEach nodes []).reverse := rfl

theorem pushMerging_text_append (value more : String) (done : List Node) :
    pushMerging (.text (value ++ more)) done =
      pushMerging (.text more) (pushMerging (.text value) done) := by
  cases done with
  | nil => rfl
  | cons previous rest => cases previous <;> simp [pushMerging, String.append_assoc]

theorem pushEach_reverse_cons (node : Node) (done before : List Node) :
    pushEach (node :: done).reverse before = pushMerging node (pushEach done.reverse before) := by
  rw [List.reverse_cons, pushEach_append]
  rfl

theorem pushEach_reverse_pushMerging (node : Node) (done before : List Node) :
    pushEach (pushMerging node done).reverse before =
      pushMerging node (pushEach done.reverse before) := by
  rcases pushMerging_eq node done with ⟨-, apart⟩ | ⟨value, more, rest, rfl, rfl, merged⟩
  · rw [apart, pushEach_reverse_cons]
  · rw [merged, pushEach_reverse_cons, pushEach_reverse_cons, pushMerging_text_append]

theorem pushEach_reverse_pushEach (nodes done before : List Node) :
    pushEach (pushEach nodes done).reverse before =
      pushEach nodes (pushEach done.reverse before) := by
  induction nodes generalizing done with
  | nil => rfl
  | cons node rest induction =>
      calc
        pushEach (pushEach (node :: rest) done).reverse before =
            pushEach rest (pushEach (pushMerging node done).reverse before) :=
          induction (pushMerging node done)
        _ = pushEach (node :: rest) (pushEach done.reverse before) := by
          rw [pushEach_reverse_pushMerging]
          rfl

theorem pushEach_mergeTexts (nodes before : List Node) :
    pushEach (mergeTexts nodes) before = pushEach nodes before :=
  pushEach_reverse_pushEach nodes [] before

/-! The builder on trees. A frame is followed through the trees in it: what it collects, what it
learns of them, and which task markers it leaves to the frames around it. -/

namespace Builder

theorem pushAll_open (nodes : List Node) (frame : Frame) (children : List Node) (rest : List Open)
    (root : List Node) :
    pushAll nodes ⟨⟨frame, children⟩ :: rest, root⟩ =
      ⟨⟨frame, pushEach nodes children⟩ :: rest, root⟩ := by
  induction nodes generalizing children with
  | nil => rfl
  | cons node _ induction => exact induction (pushMerging node children)

theorem pushAll_root (nodes root : List Node) :
    pushAll nodes ⟨[], root⟩ = ⟨[], pushEach nodes root⟩ := by
  induction nodes generalizing root with
  | nil => rfl
  | cons node _ induction => exact induction (pushMerging node root)

def checkAll (tasks : List Bool) (stack : List Open) : List Open :=
  tasks.foldl (fun stack checked => checkItem checked stack) stack

@[simp] theorem checkAll_nil (stack : List Open) : checkAll [] stack = stack := rfl

theorem checkAll_append (first second : List Bool) (stack : List Open) :
    checkAll (first ++ second) stack = checkAll second (checkAll first stack) :=
  List.foldl_append

@[simp] theorem checkAll_empty (tasks : List Bool) : checkAll tasks [] = [] := by
  induction tasks with
  | nil => rfl
  | cons checked _ induction => exact induction

end Builder

namespace Frame

open Builder

def isLiteral : Frame → Bool
  | .code _ _ _ | .yaml _ | .html _ => true
  | _ => false

/-- A frame after the trees in it. -/
def after (trees : List Tree) : Frame → Frame
  | .item checked loose =>
      .item ((Tree.tasksOf trees).getLast?.or checked) (loose || trees.any Tree.isParagraph)
  | .code lang detail value => .code lang detail (value ++ Tree.literal false trees)
  | .yaml value => .yaml (value ++ Tree.literal false trees)
  | .html value => .html (value ++ Tree.literal true trees)
  | frame => frame

/-- The task markers in a frame that are for a frame around it. -/
def tasksPast (tasks : List Bool) : Frame → List Bool
  | .item _ _ => []
  | _ => tasks

def checkedBy (tasks : List Bool) : Frame → Frame
  | .item checked loose => .item (tasks.getLast?.or checked) loose
  | frame => frame

def starting (tag : Tag) : Frame → Frame
  | .item checked loose => .item checked (loose || tag = .paragraph)
  | frame => frame

theorem after_append (frame : Frame) (first second : List Tree) :
    frame.after (first ++ second) = (frame.after first).after second := by
  cases frame <;>
    simp [after, Tree.tasksOf_append, Tree.literal_append, List.getLast?_append, Option.or_assoc,
      Bool.or_assoc, String.append_assoc]

@[simp] theorem isLiteral_after (frame : Frame) (trees : List Tree) :
    (frame.after trees).isLiteral = frame.isLiteral := by
  cases frame <;> rfl

@[simp] theorem tasksPast_after (frame : Frame) (trees : List Tree) (tasks : List Bool) :
    (frame.after trees).tasksPast tasks = frame.tasksPast tasks := by
  cases frame <;> rfl

@[simp] theorem tasksPast_starting (frame : Frame) (tag : Tag) (tasks : List Bool) :
    (frame.starting tag).tasksPast tasks = frame.tasksPast tasks := by
  cases frame <;> rfl

@[simp] theorem tasksPast_nil (frame : Frame) : frame.tasksPast [] = [] := by
  cases frame <;> rfl

theorem tasksPast_append (frame : Frame) (first second : List Bool) :
    frame.tasksPast (first ++ second) = frame.tasksPast first ++ frame.tasksPast second := by
  cases frame <;> rfl

theorem after_leaf {content : Leaf} (frame : Frame) (untasked : (Tree.leaf content).tasks = [])
    (silent : frame.isLiteral = false ∨ ∀ inHtml, content.literal inHtml = "") :
    frame.after [.leaf content] = frame := by
  cases frame <;>
    simp_all [after, isLiteral, Tree.tasksOf, Tree.isParagraph, Tree.literal]

theorem tasksPast_frameOf (tag : Tag) (children : List Tree) :
    (frameOf tag).tasksPast (Tree.tasksOf children) = (Tree.node tag children).tasks := by
  cases tag with
  | code info => cases info <;> rfl
  | _ => rfl

theorem checkedBy_starting (frame : Frame) (tag : Tag) (children : List Tree) :
    (frame.starting tag).checkedBy (Tree.node tag children).tasks =
      frame.after [.node tag children] := by
  cases frame with
  | item checked loose =>
      have paragraph : (Tree.node tag children).isParagraph = decide (tag = .paragraph) := by
        cases tag <;> rfl
      simp [starting, checkedBy, after, Tree.tasksOf, paragraph]
  | _ => simp [starting, checkedBy, after, Tree.literal]

end Frame

namespace Builder

theorem checkAll_open (tasks : List Bool) (frame : Frame) (children : List Node)
    (rest : List Open) :
    checkAll tasks (⟨frame, children⟩ :: rest) =
      ⟨frame.checkedBy tasks, children⟩ :: checkAll (frame.tasksPast tasks) rest := by
  induction tasks generalizing frame rest with
  | nil => cases frame <;> rfl
  | cons checked tasks induction =>
      cases frame with
      | item before loose =>
          calc
            checkAll (checked :: tasks) (⟨.item before loose, children⟩ :: rest) =
                checkAll tasks (⟨.item (some checked) loose, children⟩ :: rest) := rfl
            _ = ⟨.item (tasks.getLast?.or (some checked)) loose, children⟩ :: rest :=
              induction _ _
            _ = ⟨.item ((checked :: tasks).getLast?.or before) loose, children⟩ :: rest := by
              cases found : tasks.getLast? <;> simp [List.getLast?_cons, found]
      | _ => exact induction _ _

theorem enter_open (tag : Tag) (frame : Frame) (children : List Node) (rest : List Open)
    (root : List Node) :
    enter tag ⟨⟨frame, children⟩ :: rest, root⟩ =
      ⟨⟨frameOf tag, []⟩ :: ⟨frame.starting tag, children⟩ :: rest, root⟩ := by
  cases frame with
  | item checked loose => cases tag <;> simp [enter, Open.markLoose, Frame.starting]
  | _ => cases tag <;> rfl

theorem leave_open (frame : Frame) (children : List Node) (rest : List Open) (root : List Node) :
    leave ⟨⟨frame, children⟩ :: rest, root⟩ =
      pushAll (closed children.reverse frame) ⟨rest, root⟩ := rfl

theorem text_open (value : String) (frame : Frame) (children : List Node) (rest : List Open)
    (root : List Node) :
    text value ⟨⟨frame, children⟩ :: rest, root⟩ =
      if frame.isLiteral then ⟨⟨frame.after [.leaf (.text value)], children⟩ :: rest, root⟩
      else ⟨⟨frame, pushMerging (.text value) children⟩ :: rest, root⟩ := by
  cases frame <;> simp [text, push, Frame.isLiteral, Frame.after, Tree.literal, Leaf.literal]

/-- What the builder makes of trees in an open construct: the frames around it learn of the task
markers, and unless it is a literal block it collects the nodes of the trees. -/
def Absorbs (trees : List Tree) : Prop :=
  ∀ (frame : Frame) (children : List Node) (rest : List Open) (root : List Node),
    ∃ added,
      (Tree.flattenAll trees).foldl step ⟨⟨frame, children⟩ :: rest, root⟩ =
        ⟨⟨frame.after trees, added⟩ :: checkAll (frame.tasksPast (Tree.tasksOf trees)) rest, root⟩ ∧
      (frame.isLiteral = false → added = pushEach (Tree.nodesOf trees) children)

theorem absorbs_nil : Absorbs [] := by
  intro frame children rest root
  refine ⟨children, ?_, fun _ => rfl⟩
  cases frame <;> simp [Frame.after, Frame.tasksPast, checkAll, Tree.tasksOf, Tree.literal]

theorem Absorbs.append {first second : List Tree} (absorbs : Absorbs first)
    (following : Absorbs second) : Absorbs (first ++ second) := by
  intro frame children rest root
  obtain ⟨added, reached, collects⟩ := absorbs frame children rest root
  obtain ⟨more, reachedNext, collectsNext⟩ := following (frame.after first) added
    (checkAll (frame.tasksPast (Tree.tasksOf first)) rest) root
  refine ⟨more, ?_, fun plain => ?_⟩
  · rw [Tree.flattenAll_append, List.foldl_append, reached, reachedNext, Frame.after_append,
      Frame.tasksPast_after, ← checkAll_append, ← Frame.tasksPast_append, Tree.tasksOf_append]
  · rw [collectsNext (by simpa using plain), collects plain, Tree.nodesOf_append,
      pushEach_append]

theorem absorbs_silent_leaf {content : Leaf} (untasked : (Tree.leaf content).tasks = [])
    (silent : ∀ inHtml, content.literal inHtml = "")
    (pushes : ∀ builder : Builder, builder.leaf content = builder.pushAll content.nodes) :
    Absorbs [.leaf content] := by
  intro frame children rest root
  refine ⟨pushEach content.nodes children, ?_, fun _ => ?_⟩
  · rw [Frame.after_leaf frame untasked (.inr silent)]
    simp [step, pushes, pushAll_open, Tree.tasksOf, untasked]
  · simp [Tree.nodesOf, Tree.nodes]

theorem absorbs_text (value : String) : Absorbs [.leaf (.text value)] := by
  intro frame children rest root
  have untasked : (Tree.leaf (.text value)).tasks = [] := rfl
  cases literal : frame.isLiteral with
  | true =>
      exact ⟨children, by simp [step, leaf, text_open, literal, Tree.tasksOf, untasked], by simp⟩
  | false =>
      refine ⟨pushMerging (.text value) children, ?_, fun _ => rfl⟩
      rw [Frame.after_leaf frame untasked (.inl literal)]
      simp [step, leaf, text_open, literal, Tree.tasksOf, untasked]

theorem absorbs_html (value : String) : Absorbs [.leaf (.html value)] := by
  intro frame children rest root
  cases frame with
  | html collected =>
      exact ⟨children, by simp [step, leaf, html, Frame.after, Frame.tasksPast, Tree.tasksOf,
        Tree.tasks, Tree.literal, Leaf.literal, checkAll], by simp [Frame.isLiteral]⟩
  | _ =>
      refine ⟨pushEach (Leaf.html value).nodes children, ?_, fun _ => rfl⟩
      simp [step, leaf, html, push, pushEach, Leaf.nodes, Frame.after, Frame.tasksPast,
        Tree.tasksOf, Tree.tasks, Tree.literal, Leaf.literal, Tree.isParagraph, checkAll]

theorem absorbs_task (checked : Bool) : Absorbs [.leaf (.task checked)] := by
  intro frame children rest root
  refine ⟨children, ?_, fun _ => rfl⟩
  have marked : frame.checkedBy [checked] = frame.after [.leaf (.task checked)] := by
    cases frame <;> simp [Frame.checkedBy, Frame.after, Tree.tasksOf, Tree.tasks,
      Tree.isParagraph, Tree.literal, Leaf.literal]
  rw [← marked]
  exact congrArg (fun stack => Builder.mk stack root) (checkAll_open [checked] frame children rest)

theorem absorbs_leaf (content : Leaf) : Absorbs [.leaf content] := by
  cases content with
  | text value => exact absorbs_text value
  | html value => exact absorbs_html value
  | task checked => exact absorbs_task checked
  | softBreak =>
      -- a soft break is read as a text
      intro frame children rest root
      obtain ⟨added, reached, collects⟩ := absorbs_text "\n" frame children rest root
      refine ⟨added, ?_, collects⟩
      cases frame <;> exact reached
  | inlineHtml value =>
      refine absorbs_silent_leaf rfl (fun _ => rfl) fun builder => ?_
      cases breaks : isBreakTag value <;> simp [leaf, Leaf.nodes, pushAll, breaks]
  | _ => exact absorbs_silent_leaf rfl (fun _ => rfl) fun _ => rfl

theorem stripNewline_literal (inHtml : Bool) (trees : List Tree) :
    stripNewline (Tree.literal inHtml trees) = Tree.value inHtml trees := by
  rw [stripNewline, Text.dropFinalNewline, Tree.value]
  split
  · rfl
  · exact String.ofList_toList

theorem any_isSpreadItem_mergeTexts (nodes : List Node) :
    (mergeTexts nodes).any isSpreadItem = nodes.any isSpreadItem := by
  have pushed : ∀ done, (pushEach nodes done).any isSpreadItem =
      (done.any isSpreadItem || nodes.any isSpreadItem) := by
    induction nodes with
    | nil => simp [pushEach]
    | cons node rest induction =>
        intro done
        have added : (pushMerging node done).any isSpreadItem =
            (isSpreadItem node || done.any isSpreadItem) := by
          rcases pushMerging_eq node done with ⟨-, apart⟩ | ⟨value, more, rest, rfl, rfl, merged⟩
          · rw [apart, List.any_cons]
          · simp [merged, isSpreadItem]
        calc
          (pushEach (node :: rest) done).any isSpreadItem =
              ((pushMerging node done).any isSpreadItem || rest.any isSpreadItem) :=
            induction (pushMerging node done)
          _ = (done.any isSpreadItem || (node :: rest).any isSpreadItem) := by
            rw [added, Bool.or_comm (isSpreadItem node), Bool.or_assoc, List.any_cons]
  simpa [mergeTexts_eq] using pushed []

theorem any_isSpreadItem_enclose (tag : Tag) (children : List Tree)
    (inside : (Tree.nodesOf children).any isSpreadItem = Tree.anyLoose children) :
    (Tree.node tag children).nodes.any isSpreadItem = (Tree.node tag children).isLoose := by
  cases tag with
  | other => exact inside
  | code info => cases info <;> rfl
  | _ => simp [Tree.nodes, Tree.enclose, Tree.isLoose, isSpreadItem]

mutual
theorem any_isSpreadItem_nodes : (tree : Tree) → tree.nodes.any isSpreadItem = tree.isLoose
  | .leaf content => by
      cases content with
      | inlineHtml value =>
          cases breaks : isBreakTag value <;>
            simp [Tree.nodes, Leaf.nodes, Tree.isLoose, isSpreadItem, breaks]
      | _ => rfl
  | .node tag children =>
      any_isSpreadItem_enclose tag children (any_isSpreadItem_nodesOf children)

theorem any_isSpreadItem_nodesOf :
    (trees : List Tree) → (Tree.nodesOf trees).any isSpreadItem = Tree.anyLoose trees
  | [] => rfl
  | tree :: rest => by
      rw [Tree.nodesOf, List.any_append, any_isSpreadItem_nodes, any_isSpreadItem_nodesOf,
        Tree.anyLoose]
end

/-- What is left behind of a construct is what its tree stands for. -/
theorem closed_after (tag : Tag) (children : List Tree) {added before : List Node}
    (collects : (frameOf tag).isLiteral = false → added = pushEach (Tree.nodesOf children) []) :
    pushEach (closed added.reverse ((frameOf tag).after children)) before =
      pushEach (Tree.node tag children).nodes before := by
  have merged : (frameOf tag).isLiteral = false →
      added.reverse = mergeTexts (Tree.nodesOf children) := by
    intro plain
    rw [collects plain, mergeTexts_eq]
  cases tag with
  | other =>
      have spliced : pushEach added.reverse before = pushEach (Tree.nodesOf children) before := by
        rw [merged rfl, pushEach_mergeTexts]
      simpa [closed, frameOf, Frame.after, Tree.nodes, Tree.enclose] using spliced
  | code info =>
      cases info <;>
        simp [closed, frameOf, Frame.after, Tree.nodes, Tree.enclose, stripNewline_literal]
  | html | metadata =>
      simp [closed, frameOf, Frame.after, Tree.nodes, Tree.enclose, stripNewline_literal]
  | list start =>
      have spread := (any_isSpreadItem_mergeTexts (Tree.nodesOf children)).trans
        (any_isSpreadItem_nodesOf children)
      simp [closed, frameOf, Frame.after, Tree.nodes, Tree.enclose, merged rfl, spread]
  | _ => simp [closed, frameOf, Frame.after, Tree.nodes, Tree.enclose, merged rfl]

theorem Absorbs.enclosed (tag : Tag) {children : List Tree} (absorbs : Absorbs children) :
    Absorbs [.node tag children] := by
  intro frame before rest root
  obtain ⟨added, reached, collects⟩ :=
    absorbs (frameOf tag) [] (⟨frame.starting tag, before⟩ :: rest) root
  refine ⟨pushEach (Tree.node tag children).nodes before, ?_, fun _ => ?_⟩
  · -- the task markers in the construct have reached the frames around it before it is left
    calc
      (Tree.flattenAll [.node tag children]).foldl step ⟨⟨frame, before⟩ :: rest, root⟩ =
          ((Tree.flattenAll children).foldl step
            (enter tag ⟨⟨frame, before⟩ :: rest, root⟩)).leave := by
        simp [step]
      _ = leave ⟨⟨(frameOf tag).after children, added⟩ :: checkAll (Tree.node tag children).tasks
            (⟨frame.starting tag, before⟩ :: rest), root⟩ := by
        rw [enter_open, reached, Frame.tasksPast_frameOf]
      _ = _ := by
        rw [checkAll_open, Frame.checkedBy_starting, Frame.tasksPast_starting, leave_open,
          pushAll_open, closed_after tag children collects, Tree.tasksOf, Tree.tasksOf,
          List.append_nil]
  · simp [Tree.nodesOf]

mutual
theorem absorbs_tree : (tree : Tree) → Absorbs [tree]
  | .leaf content => absorbs_leaf content
  | .node tag children => (absorbs_trees children).enclosed tag

theorem absorbs_trees : (trees : List Tree) → Absorbs trees
  | [] => absorbs_nil
  | tree :: rest => (absorbs_tree tree).append (absorbs_trees rest)
end

theorem leaf_root (content : Leaf) (root : List Node) :
    leaf content ⟨[], root⟩ = ⟨[], pushEach content.nodes root⟩ := by
  cases content with
  | inlineHtml value =>
      cases breaks : isBreakTag value <;> simp [leaf, Leaf.nodes, push, pushEach, breaks]
  | _ => rfl

theorem enter_root (tag : Tag) (root : List Node) :
    enter tag ⟨[], root⟩ = ⟨[⟨frameOf tag, []⟩], root⟩ := by
  cases tag <;> rfl

theorem foldl_flatten_root (tree : Tree) (root : List Node) :
    tree.flatten.foldl step ⟨[], root⟩ = ⟨[], pushEach tree.nodes root⟩ := by
  cases tree with
  | leaf content => exact leaf_root content root
  | node tag children =>
      obtain ⟨added, reached, collects⟩ := absorbs_trees children (frameOf tag) [] [] root
      calc
        (Tree.node tag children).flatten.foldl step ⟨[], root⟩ =
            ((Tree.flattenAll children).foldl step (enter tag ⟨[], root⟩)).leave := by
          simp [step]
        _ = leave ⟨[⟨(frameOf tag).after children, added⟩], root⟩ := by
          rw [enter_root, reached, checkAll_empty]
        _ = ⟨[], pushEach (Tree.node tag children).nodes root⟩ := by
          rw [leave_open, pushAll_root, closed_after tag children collects]

theorem foldl_flattenAll_root (trees : List Tree) (root : List Node) :
    (Tree.flattenAll trees).foldl step ⟨[], root⟩ = ⟨[], pushEach (Tree.nodesOf trees) root⟩ := by
  induction trees generalizing root with
  | nil => rfl
  | cons tree rest induction =>
      rw [Tree.flattenAll_cons, List.foldl_append, foldl_flatten_root, induction,
        ← pushEach_append]
      rfl

end Builder

theorem Event.fold_flattenAll (trees : List Tree) :
    Event.fold (Tree.flattenAll trees) = Tree.translate trees := by
  rw [fold, Builder.empty, Builder.foldl_flattenAll_root]
  rfl

end EditorMarkdown
