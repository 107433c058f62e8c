import EditorMarkdown.Conversion.Standard
import EditorMarkdown.Conversion.Tree
import EditorMarkdown.Proofs.Document.Parts
import EditorMarkdown.Proofs.Document.Ranks
import EditorMarkdown.Proofs.Markdown.Shown
import Mathlib.Data.List.TakeWhile

/-!
The words of a document in its markdown. Containers and marks show the words in them, and nodes of
types that are not registered leave theirs to the node around them. Only a list leaves words out:
directly in it, nothing but items is written.
-/

namespace EditorMarkdown

open Text (IsWord Holds)

namespace Document.Node

mutual
/-- The texts of a node and of everything in it, in order. -/
def words : Node → List (List Char)
  | ⟨_, _, content, _, text⟩ => (text.map String.toList).toList ++ wordsOf content

def wordsOf : List Node → List (List Char)
  | [] => []
  | node :: rest => node.words ++ wordsOf rest
end

end Document.Node

namespace Conversion

open Document (Mark)
open Markdown (Shows)

def listTypes : List String := ["bulletList", "orderedList", "taskList"]

def itemTypes : List String := ["listItem", "taskItem"]

def frameTypes : List String := ["doc", "paragraph", "blockquote", "callout"]

def markTypes : List String := ["link", "bold", "italic", "strike", "code"]

def isRegistered (type : String) : Bool := (Registry.standard.named? type).isSome

/-- Whether the content of a node stands directly in a list: that of a list does, and that of a node
of an unregistered type does if the node does. -/
def entersList (inList : Bool) (type : String) : Bool :=
  if isRegistered type then type ∈ listTypes else inList

/-- Whether a list leaves out a node that stands directly in it. -/
def isForeign (type : String) (marks : List Mark) : Bool :=
  (isRegistered type && type ∉ itemTypes) || marks.any fun mark => isRegistered mark.type

mutual
def keptWords (inList : Bool) : Document.Node → List (List Char)
  | ⟨type, _, content, marks, text⟩ =>
      if inList && isForeign type marks then []
      else (text.map String.toList).toList ++ keptWordsOf (entersList inList type) content

def keptWordsOf (inList : Bool) : List Document.Node → List (List Char)
  | [] => []
  | node :: rest => keptWords inList node ++ keptWordsOf inList rest
end

/-- Every text of a document is a word, and what has words in it is a container or of a type that is
not registered, with no marks but those that are declared or not registered. -/
structure IsWordy (document : Document.Node) : Prop where
  text : ∀ part ∈ document.parts, ∀ text ∈ part.text,
    IsWord text.toList ∧ part.type = "text" ∧ part.content = []
  container : ∀ part ∈ document.parts, Document.Node.wordsOf part.content ≠ [] →
    part.type ∈ frameTypes ++ itemTypes ++ listTypes ∨ isRegistered part.type = false
  marks : ∀ part ∈ document.parts, ∀ child ∈ part.content, child.words ≠ [] →
    ∀ mark ∈ child.marks, mark.type ∈ markTypes ∨ isRegistered mark.type = false

variable {document node : Document.Node} {mark : Mark} {children nodes : List Markdown.Node}
  {words own : List (List Char)} {inList : Bool}

theorem IsWordy.child (wordy : IsWordy document) (member : node ∈ document.content) :
    IsWordy node :=
  have inDocument : ∀ part ∈ node.parts, part ∈ document.parts := fun _ inside =>
    Document.Node.mem_parts.2 (.inr ⟨node, member, inside⟩)
  { text := fun part inside => wordy.text part (inDocument part inside)
    container := fun part inside => wordy.container part (inDocument part inside)
    marks := fun part inside => wordy.marks part (inDocument part inside) }

mutual
theorem keptWords_sublist (inList : Bool) : (node : Document.Node) →
    (keptWords inList node).Sublist node.words
  | ⟨type, attrs, content, marks, text⟩ => by
      rw [keptWords, Document.Node.words]
      split
      · exact List.nil_sublist _
      · exact (List.Sublist.refl _).append (keptWordsOf_sublist _ content)

theorem keptWordsOf_sublist (inList : Bool) : (nodes : List Document.Node) →
    (keptWordsOf inList nodes).Sublist (Document.Node.wordsOf nodes)
  | [] => List.Sublist.refl _
  | node :: rest => (keptWords_sublist inList node).append (keptWordsOf_sublist inList rest)
end

theorem keptWords_eq (inList : Bool) (node : Document.Node) :
    keptWords inList node =
      if inList && isForeign node.type node.marks then []
      else (node.text.map String.toList).toList ++
        keptWordsOf (entersList inList node.type) node.content := by
  cases node
  rw [keptWords]

/-! Marks. -/

theorem applyTo_of_not_registered (subject : Subject)
    (unknown : isRegistered subject.type = false) (children : List Markdown.Node) :
    Registry.standard.applyTo subject children = children := by
  have missing : Registry.standard.named? subject.type = none := by
    simpa [isRegistered] using unknown
  simp [Registry.applyTo, missing]

theorem shows_enclose (outer : List Markdown.Node → Markdown.Node)
    (wrapper : (outer children).isWrapper) (inside : (outer children).children = children)
    (shown : Shows false children words) : Shows false (enclose outer children) words := by
  unfold enclose
  split
  · next empty =>
      rw [List.isEmpty_iff.1 empty] at shown
      exact shown
  · exact .enclosed wrapper (by rwa [inside])

theorem shows_codeToMarkdown (subject : Subject) (shown : Shows false children words) :
    Shows false (codeToMarkdown subject children) words := by
  have held := shown.holds_plainTexts
  unfold codeToMarkdown
  dsimp only
  split
  · next empty =>
      rw [String.isEmpty_iff.1 empty] at held
      rw [held.eq_nil]
      exact .nil
  · exact .coded held

theorem shows_applyMark (declared : mark.type ∈ markTypes) (shown : Shows false children words) :
    Shows false (Registry.standard.applyMark mark children) words := by
  obtain ⟨type, attrs⟩ := mark
  simp only [markTypes, List.mem_cons, List.not_mem_nil, or_false] at declared
  rcases declared with rfl | rfl | rfl | rfl | rfl
  · exact shows_enclose _ rfl rfl shown
  · exact shows_enclose _ rfl rfl shown
  · exact shows_enclose _ rfl rfl shown
  · exact shows_enclose _ rfl rfl shown
  · exact shows_codeToMarkdown (.mark ⟨"code", attrs⟩) shown

def IsKeeping (inList : Bool) (mark : Mark) : Prop :=
  isRegistered mark.type = false ∨ (inList = false ∧ mark.type ∈ markTypes)

theorem IsKeeping.shows (keeping : IsKeeping inList mark) (shown : Shows inList children words) :
    Shows inList (Registry.standard.applyMark mark children) words := by
  rcases keeping with unknown | ⟨rfl, declared⟩
  · rw [Registry.applyMark, applyTo_of_not_registered (.mark mark) unknown]
    exact shown
  · exact shows_applyMark declared shown

theorem isKeeping_of_kept (some : keptWords inList node ≠ [])
    (marks : node.words ≠ [] →
      ∀ mark ∈ node.marks, mark.type ∈ markTypes ∨ isRegistered mark.type = false)
    (member : mark ∈ node.marks) : IsKeeping inList mark := by
  have words : node.words ≠ [] := fun empty =>
    some (List.sublist_nil.1 (empty ▸ keptWords_sublist inList node))
  rcases marks words mark member with declared | unknown
  · cases inList with
    | false => exact .inr ⟨rfl, declared⟩
    | true =>
        rw [keptWords_eq] at some
        split at some
        · exact absurd rfl some
        · next kept =>
            have unmarked : (node.marks.any fun mark => isRegistered mark.type) = false := by
              simp_all [isForeign]
            refine .inl ?_
            simpa using List.any_eq_false.1 unmarked mark member
  · exact .inl unknown

/-! Runs of marked siblings. -/

/-- Pieces show words, and those that show any have no marks that would hide them. -/
inductive Covers (inList : Bool) : List Piece → List (List Char) → Prop
  | nil : Covers inList [] []
  | cons {piece : Piece} {pieces : List Piece} {own words : List (List Char)}
      (shown : Shows inList piece.nodes own)
      (keeping : own ≠ [] → ∀ mark ∈ piece.marks, IsKeeping inList mark)
      (rest : Covers inList pieces words) : Covers inList (piece :: pieces) (own ++ words)

variable {piece : Piece} {pieces others : List Piece}

theorem Covers.of_append (covers : Covers inList (pieces ++ others) words) :
    ∃ own more, words = own ++ more ∧ Covers inList pieces own ∧ Covers inList others more := by
  induction pieces generalizing words with
  | nil => exact ⟨[], words, rfl, .nil, covers⟩
  | cons piece pieces induction =>
      cases covers with
      | @cons _ _ own words shown keeping rest =>
          obtain ⟨first, more, rfl, before, after⟩ := induction rest
          exact ⟨own ++ first, more, by simp, .cons shown keeping before, after⟩

theorem Covers.without (covers : Covers inList pieces words) (mark : Mark) :
    Covers inList (pieces.map (Piece.without mark)) words := by
  induction covers with
  | nil => exact .nil
  | cons shown keeping _ induction =>
      refine .cons shown (fun some other member => ?_) induction
      exact keeping some other (List.mem_filter.1 member).1

theorem isKeeping_of_same {other : Mark} (keeping : IsKeeping inList other)
    (same : other.same mark) : IsKeeping inList mark := by
  have types : other.type = mark.type := by
    simp only [Mark.same, Bool.and_eq_true, decide_eq_true_eq] at same
    exact same.1
  rwa [IsKeeping, types] at keeping

theorem Covers.isKeeping (covers : Covers inList pieces words) (some : words ≠ [])
    (carried : ∀ piece ∈ pieces, piece.carries mark) : IsKeeping inList mark := by
  induction covers with
  | nil => exact absurd rfl some
  | @cons piece pieces own words _ keeping _ induction =>
      by_cases none : own = []
      · rw [none, List.nil_append] at some
        exact induction some fun piece member => carried piece (List.mem_cons_of_mem _ member)
      · obtain ⟨other, member, same⟩ := List.any_eq_true.1 (carried piece (by simp))
        exact isKeeping_of_same (keeping none other member) same

theorem shows_markedRun (covers : Covers inList pieces words) :
    Shows inList (markedRun Registry.standard.applyMark pieces) words := by
  induction pieces using markedRun.induct generalizing words with
  | case1 =>
      cases covers
      rw [markedRun_nil]
      exact .nil
  | case2 piece rest unmarked induction =>
      obtain ⟨marks, nodes⟩ := piece
      obtain rfl : marks = [] := unmarked
      cases covers with
      | cons shown _ following =>
          rw [markedRun_unmarked]
          exact shown.append (induction following)
  | case3 piece rest first marks carries mark run enclosed =>
      rename_i afterwards
      obtain ⟨all, nodes⟩ := piece
      obtain rfl : all = first :: marks := carries
      have parted : Covers inList
          ((⟨first :: marks, nodes⟩ :: rest.takeWhile (Piece.carries mark)) ++
            rest.dropWhile (Piece.carries mark)) words := by
        simpa using covers
      obtain ⟨own, more, rfl, inRun, behind⟩ := parted.of_append
      rw [markedRun_marked]
      refine Shows.append ?_ (afterwards behind)
      by_cases none : own = []
      · rw [none]
        exact Markdown.shows_nil inList _
      · -- a piece of the run with words vouches for the mark
        have keeping : IsKeeping inList mark := by
          refine inRun.isKeeping none ?_
          rintro piece (_ | ⟨_, member⟩)
          · exact List.any_eq_true.2 ⟨mark, Piece.chosen_mem first marks rest, by simp⟩
          · exact List.mem_takeWhile_imp member
        exact keeping.shows (enclosed (inRun.without mark))

/-! Nodes. -/

theorem shows_applyTo_text (isText : node.type = "text") {text : String}
    (found : node.text = some text) (isWord : IsWord text.toList) :
    Shows false (Registry.standard.applyTo (.node node) children) [text.toList] := by
  obtain ⟨type, attrs, content, marks, value⟩ := node
  obtain rfl : type = "text" := isText
  obtain rfl : value = some text := found
  have filled : text.isEmpty = false := by
    simpa [← String.toList_eq_nil_iff] using isWord.filled
  have applied : Registry.standard.applyTo
      (.node ⟨"text", attrs, content, marks, some text⟩) children =
        if text.isEmpty then [] else [.text text] := rfl
  rw [applied, filled]
  exact .text isWord .nil

theorem shows_applyTo_frame (isFrame : node.type ∈ frameTypes ++ itemTypes)
    (shown : Shows false children words) :
    Shows false (Registry.standard.applyTo (.node node) children) words := by
  obtain ⟨type, attrs, content, marks, text⟩ := node
  simp only [frameTypes, itemTypes, List.cons_append, List.nil_append, List.mem_cons,
    List.not_mem_nil, or_false] at isFrame
  rcases isFrame with rfl | rfl | rfl | rfl | rfl | rfl
  · exact .enclosed rfl shown
  · exact shows_enclose .paragraph rfl rfl shown
  · exact .enclosed rfl shown
  · exact .enclosed rfl shown
  · exact .enclosed rfl shown
  · exact .enclosed rfl shown

theorem shows_applyTo_item (isItem : node.type ∈ itemTypes) (shown : Shows false children words) :
    Shows true (Registry.standard.applyTo (.node node) children) words := by
  obtain ⟨type, attrs, content, marks, text⟩ := node
  simp only [itemTypes, List.mem_cons, List.not_mem_nil, or_false] at isItem
  rcases isItem with rfl | rfl
  · exact .itemized _ _ shown
  · exact .itemized _ _ shown

theorem shows_applyTo_list (isList : node.type ∈ listTypes) (shown : Shows true children words) :
    Shows false (Registry.standard.applyTo (.node node) children) words := by
  obtain ⟨type, attrs, content, marks, text⟩ := node
  simp only [listTypes, List.mem_cons, List.not_mem_nil, or_false] at isList
  rcases isList with rfl | rfl | rfl
  · exact .listed _ _ _ shown
  · exact .listed _ _ _ shown
  · exact .listed _ _ _ shown

theorem isRegistered_text : isRegistered "text" = true := rfl

theorem entersList_of_registered (registered : isRegistered node.type) :
    entersList inList node.type = decide (node.type ∈ listTypes) := by
  simp [entersList, registered]

theorem IsWordy.text_eq_none (wordy : IsWordy node) (other : node.type ≠ "text") :
    node.text = none := by
  refine Option.eq_none_iff_forall_not_mem.2 fun text found => ?_
  exact other (wordy.text node node.mem_parts_self text found).2.1

theorem not_mem_listTypes : ∀ type ∈ frameTypes ++ itemTypes, type ∉ listTypes := by decide

theorem shows_applyTo_registered (wordy : IsWordy node) (registered : isRegistered node.type)
    (inside : Shows (entersList false node.type) children
      (keptWordsOf (entersList false node.type) node.content)) :
    Shows false (Registry.standard.applyTo (.node node) children)
      ((node.text.map String.toList).toList ++
        keptWordsOf (entersList false node.type) node.content) := by
  rw [entersList_of_registered registered] at inside ⊢
  cases found : node.text with
  | some text =>
      obtain ⟨isWord, isText, empty⟩ := wordy.text node node.mem_parts_self text found
      rw [empty]
      exact shows_applyTo_text isText found isWord
  | none =>
      by_cases none : keptWordsOf (decide (node.type ∈ listTypes)) node.content = []
      · rw [none]
        exact Markdown.shows_nil false _
      · have some : Document.Node.wordsOf node.content ≠ [] := by
          intro empty
          exact none (List.sublist_nil.1 (empty ▸ keptWordsOf_sublist _ node.content))
        rcases wordy.container node node.mem_parts_self some with member | unknown
        · rcases List.mem_append.1 member with isFrame | isList
          · simp only [not_mem_listTypes _ isFrame, decide_false] at inside ⊢
            exact shows_applyTo_frame isFrame inside
          · simp only [isList, decide_true] at inside ⊢
            exact shows_applyTo_list isList inside
        · simp [registered] at unknown

theorem shows_applyTo (wordy : IsWordy node)
    (inside : Shows (entersList inList node.type) children
      (keptWordsOf (entersList inList node.type) node.content)) :
    Shows inList (Registry.standard.applyTo (.node node) children) (keptWords inList node) := by
  rw [keptWords_eq]
  split
  · exact Markdown.shows_nil inList _
  · next kept =>
      cases registered : isRegistered node.type with
      | false =>
          have textless : node.text = none := by
            refine wordy.text_eq_none fun isText => ?_
            rw [isText, isRegistered_text] at registered
            cases registered
          have enters : entersList inList node.type = inList := by simp [entersList, registered]
          rw [applyTo_of_not_registered (.node node) registered, textless]
          rwa [enters] at inside ⊢
      | true =>
          cases inList with
          | false => exact shows_applyTo_registered wordy registered inside
          | true =>
              have isItem : node.type ∈ itemTypes := by
                simp only [isForeign, registered, Bool.true_and, Bool.or_eq_true] at kept
                by_contra other
                exact kept (.inl (decide_eq_true other))
              have textless : node.text = none := by
                refine wordy.text_eq_none fun isText => ?_
                rw [isText] at isItem
                exact absurd isItem (by decide)
              have outside := not_mem_listTypes _ (List.mem_append_right frameTypes isItem)
              rw [entersList_of_registered registered, decide_eq_false outside] at inside ⊢
              rw [textless]
              exact shows_applyTo_item isItem inside

mutual
theorem shows_toNodes (inList : Bool) : (node : Document.Node) → IsWordy node →
    Shows inList (Registry.standard.toNodes node) (keptWords inList node)
  | ⟨type, attrs, content, marks, text⟩, wordy => by
      rw [Registry.toNodes_eq]
      refine shows_applyTo wordy (shows_markedRun ?_)
      exact covers_toPieces _ content (fun node => wordy.child)
        fun node => wordy.marks _ (Document.Node.mem_parts_self _) node

theorem covers_toPieces (inList : Bool) : (nodes : List Document.Node) →
    (∀ node ∈ nodes, IsWordy node) →
    (∀ node ∈ nodes, node.words ≠ [] →
      ∀ mark ∈ node.marks, mark.type ∈ markTypes ∨ isRegistered mark.type = false) →
    Covers inList (Registry.standard.toPieces nodes) (keptWordsOf inList nodes)
  | [], _, _ => .nil
  | node :: rest, wordy, marks => by
      have others := covers_toPieces inList rest
        (fun other member => wordy other (List.mem_cons_of_mem node member))
        fun other member => marks other (List.mem_cons_of_mem node member)
      refine .cons (shows_toNodes inList node (wordy node (by simp))) ?_ others
      intro some mark member
      exact isKeeping_of_kept some (marks node (by simp)) (Document.Schema.mem_orderMarks.1 member)
end

theorem shows_spliceRoots (shown : Shows false nodes words) :
    Shows false (Registry.spliceRoots nodes) words := by
  induction nodes generalizing words with
  | nil => exact shown
  | cons node nodes induction =>
      obtain ⟨first, rest, rfl, alone, following⟩ := shown.of_cons
      rw [Registry.spliceRoots, List.flatMap_cons]
      refine Shows.append ?_ (induction following)
      cases node with
      | root children => exact alone.inside rfl
      | _ => exact alone

theorem shows_toMarkdown (wordy : IsWordy document) :
    Shows false (Registry.standard.toMarkdown document) (keptWords false document) :=
  shows_spliceRoots (shows_toNodes false document wordy)

/-! Documents whose lists leave nothing out. -/

/-- In every list there are items without marks, and nothing else. -/
def ListsHoldItems (document : Document.Node) : Prop :=
  ∀ part ∈ document.parts, part.type ∈ listTypes →
    ∀ child ∈ part.content, child.type ∈ itemTypes ∧ child.marks = []

theorem ListsHoldItems.child (holdItems : ListsHoldItems document)
    (member : node ∈ document.content) : ListsHoldItems node :=
  fun part inside => holdItems part (Document.Node.mem_parts.2 (.inr ⟨node, member, inside⟩))

theorem isRegistered_of_mem_itemTypes : ∀ type ∈ itemTypes, isRegistered type = true := by decide

mutual
theorem keptWords_eq_words (inList : Bool) : (node : Document.Node) → ListsHoldItems node →
    (inList = true → node.type ∈ itemTypes ∧ node.marks = []) →
    keptWords inList node = node.words
  | ⟨type, attrs, content, marks, text⟩, holdItems, item => by
      have present : (inList && isForeign type marks) = false := by
        cases inList with
        | false => rfl
        | true =>
            obtain ⟨isItem, unmarked⟩ := item rfl
            have isItem : type ∈ itemTypes := isItem
            obtain rfl : marks = [] := unmarked
            simp [isForeign, isItem]
      have inside : keptWordsOf (entersList inList type) content =
          Document.Node.wordsOf content := by
        refine keptWordsOf_eq_wordsOf _ content (fun child => holdItems.child) fun enters => ?_
        cases registered : isRegistered type with
        | true =>
            simp only [entersList, registered, if_true, decide_eq_true_eq] at enters
            exact holdItems _ (Document.Node.mem_parts_self _) enters
        | false =>
            simp only [entersList, registered, Bool.false_eq_true, if_false] at enters
            have known := isRegistered_of_mem_itemTypes type (item enters).1
            simp [registered] at known
      rw [keptWords, present, inside, Document.Node.words]
      rfl

theorem keptWordsOf_eq_wordsOf (inList : Bool) : (nodes : List Document.Node) →
    (∀ node ∈ nodes, ListsHoldItems node) →
    (inList = true → ∀ node ∈ nodes, node.type ∈ itemTypes ∧ node.marks = []) →
    keptWordsOf inList nodes = Document.Node.wordsOf nodes
  | [], _, _ => rfl
  | node :: rest, holdItems, items => by
      have first := keptWords_eq_words inList node (holdItems node (by simp))
        fun enters => items enters node (by simp)
      have others := keptWordsOf_eq_wordsOf inList rest
        (fun other member => holdItems other (List.mem_cons_of_mem node member))
        fun enters other member => items enters other (List.mem_cons_of_mem node member)
      rw [keptWordsOf, Document.Node.wordsOf, first, others]
end

end Conversion

end EditorMarkdown
