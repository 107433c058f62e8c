import EditorMarkdown.Markdown.Callout
import EditorMarkdown.Markdown.FrontMatter
import EditorMarkdown.Proofs.Markdown.Parts
import EditorMarkdown.Proofs.Text.Removal

/-!
Callouts in a tree. A quote announces a callout by the first text of its first paragraph, so whether
it does so depends on nothing that looking for callouts changes elsewhere in the tree. The quotes
that announce one and the texts by which they do it are changed, and all other nodes keep their
fields and the number of their children.
-/

namespace EditorMarkdown.Markdown

open Text (Leaves containsPart_iff)

variable {node root : Node} {nodes others before after inner rest children : List Node}
  {kind : CalloutKind} {value : String} {paragraph text index : Nat} {path : List Nat}

/-! Markers. -/

/-- A text has the marker of a kind, and no marker that is looked for before it. -/
def IsAnnounced (value : String) (kind : CalloutKind) : Prop :=
  ∃ before after, CalloutKind.inOrder = before ++ kind :: after ∧
    kind.marker.toList <:+: value.toList ∧ ∀ other ∈ before, ¬other.marker.toList <:+: value.toList

theorem announced?_eq_some_iff :
    CalloutKind.announced? value = some kind ↔ IsAnnounced value kind := by
  simp only [CalloutKind.announced?, IsAnnounced, List.find?_eq_some_iff_append, Bool.not_eq_true',
    ← Bool.not_eq_true, containsPart_iff]
  constructor
  · rintro ⟨marker, before, after, whole, none⟩
    exact ⟨before, after, whole, marker, none⟩
  · rintro ⟨before, after, whole, marker, none⟩
    exact ⟨marker, before, after, whole, none⟩

theorem leaves_unmark (kind : CalloutKind) (value : String) :
    Leaves kind.marker.toList value.toList (kind.unmark value).toList := by
  rw [CalloutKind.unmark, String.toList_ofList]
  exact Text.leaves_replacePart (by cases kind <;> decide) _

/-! The first node of a kind. -/

def changeFirst? (target : Kind) (change : Node → Option (CalloutKind × Node)) :
    List Node → Option (CalloutKind × List Node)
  | [] => none
  | node :: rest =>
      if node.kind = target then (change node).map fun (kind, changed) => (kind, changed :: rest)
      else (changeFirst? target change rest).map fun (kind, nodes) => (kind, node :: nodes)

section

variable {target : Kind} {change : Node → Option (CalloutKind × Node)}

theorem changeFirst?_append (first : ∀ node ∈ before, node.kind ≠ target)
    (found : node.kind = target) (after : List Node) :
    changeFirst? target change (before ++ node :: after) =
      (change node).map fun (kind, changed) => (kind, before ++ changed :: after) := by
  induction before with
  | nil => exact if_pos found
  | cons other before induction =>
      obtain ⟨apart, others⟩ := List.forall_mem_cons.1 first
      rw [List.cons_append, changeFirst?, if_neg apart, induction others, Option.map_map]
      rfl

theorem changeFirst?_eq_some (done : changeFirst? target change nodes = some (kind, others)) :
    ∃ before node changed after, (∀ other ∈ before, other.kind ≠ target) ∧ node.kind = target ∧
      change node = some (kind, changed) ∧ nodes = before ++ node :: after ∧
        others = before ++ changed :: after := by
  induction nodes generalizing others with
  | nil => cases done
  | cons node rest induction =>
      rw [changeFirst?] at done
      split at done
      · next found =>
          obtain ⟨⟨announced, changed⟩, whole, same⟩ := Option.map_eq_some_iff.1 done
          cases same
          exact ⟨[], node, changed, rest, by simp, found, whole, rfl, rfl⟩
      · next apart =>
          obtain ⟨⟨announced, later⟩, found, same⟩ := Option.map_eq_some_iff.1 done
          cases same
          obtain ⟨before, node, changed, after, first, isTarget, whole, rfl, rfl⟩ :=
            induction found
          exact ⟨_ :: before, node, changed, after, List.forall_mem_cons.2 ⟨apart, first⟩, isTarget,
            whole, rfl, rfl⟩

theorem changeFirst?_map {walk : Node → Node}
    (kinds : ∀ node : Node, (walk node).kind = target ↔ node.kind = target)
    (same : ∀ node : Node, node.kind = target →
      change (walk node) = (change node).map fun (kind, changed) => (kind, walk changed))
    (nodes : List Node) :
    changeFirst? target change (nodes.map walk) =
      (changeFirst? target change nodes).map fun (kind, nodes) => (kind, nodes.map walk) := by
  induction nodes with
  | nil => rfl
  | cons node rest induction =>
      by_cases found : node.kind = target
      · rw [List.map_cons, changeFirst?, changeFirst?, if_pos ((kinds node).2 found), if_pos found,
          same node found, Option.map_map, Option.map_map]
        rfl
      · rw [List.map_cons, changeFirst?, changeFirst?, if_neg (mt (kinds node).1 found),
          if_neg found, induction, Option.map_map, Option.map_map]
        rfl

end

/-! The text that announces a callout. -/

/-- A text without the marker of the callout that it announces. -/
def unmarkedText? : Node → Option (CalloutKind × Node)
  | .text value => (CalloutKind.announced? value).map fun kind => (kind, .text (kind.unmark value))
  | _ => none

def unmarkedParagraph? : Node → Option (CalloutKind × Node)
  | .paragraph children => (unmarkText? children).map fun (kind, nodes) => (kind, .paragraph nodes)
  | _ => none

theorem unmarkText?_eq (nodes : List Node) :
    unmarkText? nodes = changeFirst? .text unmarkedText? nodes := by
  induction nodes with
  | nil => rfl
  | cons node rest induction =>
      cases node with
      | text value =>
          have isText : (Node.text value).kind = .text := rfl
          rw [unmarkText?, changeFirst?, if_pos isText, unmarkedText?, Option.map_map]
          rfl
      | _ => exact congrArg _ induction

theorem unmarkParagraph?_eq (nodes : List Node) :
    unmarkParagraph? nodes = changeFirst? .paragraph unmarkedParagraph? nodes := by
  induction nodes with
  | nil => rfl
  | cons node rest induction =>
      cases node with
      | paragraph children =>
          have isParagraph : (Node.paragraph children).kind = .paragraph := rfl
          rw [unmarkParagraph?, changeFirst?, if_pos isParagraph, unmarkedParagraph?,
            Option.map_map]
          rfl
      | _ => exact congrArg _ induction

theorem unmarkText?_eq_some (unmarked : unmarkText? nodes = some (kind, others)) :
    ∃ before value after, (∀ node ∈ before, node.kind ≠ .text) ∧
      CalloutKind.announced? value = some kind ∧ nodes = before ++ .text value :: after ∧
        others = before ++ .text (kind.unmark value) :: after := by
  rw [unmarkText?_eq] at unmarked
  obtain ⟨before, node, changed, after, first, isText, done, rfl, rfl⟩ :=
    changeFirst?_eq_some unmarked
  cases node with
  | text value =>
      obtain ⟨announced, found, same⟩ := Option.map_eq_some_iff.1 done
      cases same
      exact ⟨before, value, after, first, found, rfl, rfl⟩
  | _ => cases isText

theorem unmarkParagraph?_eq_some (unmarked : unmarkParagraph? nodes = some (kind, others)) :
    ∃ before children changed after, (∀ node ∈ before, node.kind ≠ .paragraph) ∧
      unmarkText? children = some (kind, changed) ∧ nodes = before ++ .paragraph children :: after ∧
        others = before ++ .paragraph changed :: after := by
  rw [unmarkParagraph?_eq] at unmarked
  obtain ⟨before, node, changed, after, first, isParagraph, done, rfl, rfl⟩ :=
    changeFirst?_eq_some unmarked
  cases node with
  | paragraph children =>
      obtain ⟨⟨announced, inside⟩, found, same⟩ := Option.map_eq_some_iff.1 done
      cases same
      exact ⟨before, children, inside, after, first, found, rfl, rfl⟩
  | _ => cases isParagraph

/-! Quotes. -/

/-- A quote announces a callout of a kind by a text: its first paragraph is the child at a place,
and the text is the first one of that paragraph, at a place in it. -/
inductive Announces : Node → Nat → Nat → CalloutKind → String → Prop
  | mk {before after inner rest : List Node} {kind : CalloutKind} {value : String}
      (firstParagraph : ∀ node ∈ before, node.kind ≠ .paragraph)
      (firstText : ∀ node ∈ inner, node.kind ≠ .text) (announced : IsAnnounced value kind) :
      Announces (.blockquote (before ++ .paragraph (inner ++ .text value :: rest) :: after))
        before.length inner.length kind value

theorem announce_of_kind_ne (other : node.kind ≠ .blockquote) : node.announce = node := by
  cases node <;> first | rfl | exact absurd rfl other

theorem announce_quote (firstParagraph : ∀ node ∈ before, node.kind ≠ .paragraph)
    (firstText : ∀ node ∈ inner, node.kind ≠ .text) (announced : IsAnnounced value kind) :
    (Node.blockquote (before ++ .paragraph (inner ++ .text value :: rest) :: after)).announce =
      .callout kind
        (before ++ .paragraph (inner ++ .text (kind.unmark value) :: rest) :: after) := by
  have text : unmarkText? (inner ++ .text value :: rest) =
      some (kind, inner ++ .text (kind.unmark value) :: rest) := by
    rw [unmarkText?_eq, changeFirst?_append firstText rfl, unmarkedText?,
      announced?_eq_some_iff.2 announced]
    rfl
  have paragraph :
      unmarkParagraph? (before ++ .paragraph (inner ++ .text value :: rest) :: after) =
        some (kind,
          before ++ .paragraph (inner ++ .text (kind.unmark value) :: rest) :: after) := by
    rw [unmarkParagraph?_eq, changeFirst?_append firstParagraph rfl, unmarkedParagraph?, text]
    rfl
  simp only [Node.announce, paragraph]

theorem announce_cases (node : Node) : node.announce = node ∨
    ∃ paragraph text kind value, Announces node paragraph text kind value := by
  by_cases isQuote : node.kind = .blockquote
  · cases node with
    | blockquote children =>
        cases unmarked : unmarkParagraph? children with
        | none => exact .inl (by simp only [Node.announce, unmarked])
        | some changed =>
            obtain ⟨before, _, _, after, firstParagraph, inside, rfl, -⟩ :=
              unmarkParagraph?_eq_some unmarked
            obtain ⟨inner, value, rest, firstText, marker, rfl, -⟩ := unmarkText?_eq_some inside
            exact .inr ⟨_, _, _, value,
              .mk firstParagraph firstText (announced?_eq_some_iff.1 marker)⟩
    | _ => cases isQuote
  · exact .inl (announce_of_kind_ne isQuote)

theorem kind_announce (node : Node) :
    node.announce = node ∨ node.kind = .blockquote ∧ node.announce.kind = .callout := by
  rcases announce_cases node with same | ⟨_, _, _, _, announces⟩
  · exact .inl same
  · cases announces with
    | mk firstParagraph firstText announced =>
        rw [announce_quote firstParagraph firstText announced]
        exact .inr ⟨rfl, rfl⟩

theorem announce_announce (node : Node) : node.announce.announce = node.announce := by
  rcases kind_announce node with same | ⟨-, callout⟩
  · rw [same, same]
  · exact announce_of_kind_ne (by rw [callout]; decide)

/-! From the leaves up and from the root down. -/

theorem withChildren_of_not_isContainer (leaf : node.isContainer = false) (children : List Node) :
    node.withChildren children = node := by
  cases node <;> first | rfl | cases leaf

theorem markCallouts_eq_announce (node : Node) :
    node.markCallouts = (node.withChildren (markCallouts node.children)).announce := by
  cases container : node.isContainer with
  | true => exact Node.rebuild_eq _ _ _ container
  | false =>
      rw [withChildren_of_not_isContainer container]
      exact Node.rebuild_of_not_isContainer _ _ container

theorem kind_markCallouts (node : Node) :
    node.markCallouts.kind = node.kind ∨
      node.kind = .blockquote ∧ node.markCallouts.kind = .callout := by
  rw [markCallouts_eq_announce]
  rcases kind_announce (node.withChildren (markCallouts node.children)) with
    same | ⟨quote, callout⟩
  · exact .inl (by rw [same, Node.kind_withChildren])
  · exact .inr ⟨by rwa [Node.kind_withChildren] at quote, callout⟩

theorem markCallouts_of_kind_ne (other : node.kind ≠ .blockquote) :
    node.markCallouts = node.withChildren (markCallouts node.children) := by
  rw [markCallouts_eq_announce]
  exact announce_of_kind_ne (by rwa [Node.kind_withChildren])

theorem markCallouts_text (value : String) : (Node.text value).markCallouts = .text value := rfl

theorem markCallouts_paragraph (children : List Node) :
    (Node.paragraph children).markCallouts = .paragraph (markCallouts children) :=
  markCallouts_of_kind_ne (by simp [Node.kind])

theorem kind_markCallouts_iff {target : Kind} (notQuote : target ≠ .blockquote)
    (notCallout : target ≠ .callout) (node : Node) :
    node.markCallouts.kind = target ↔ node.kind = target := by
  rcases kind_markCallouts node with same | ⟨quote, callout⟩
  · rw [same]
  · rw [quote, callout]
    exact iff_of_false notCallout.symm notQuote.symm

theorem unmarkText?_markCallouts (nodes : List Node) :
    unmarkText? (markCallouts nodes) =
      (unmarkText? nodes).map fun (kind, nodes) => (kind, markCallouts nodes) := by
  rw [unmarkText?_eq, unmarkText?_eq]
  refine changeFirst?_map (kind_markCallouts_iff (by decide) (by decide)) ?_ nodes
  intro node isText
  cases node with
  | text value =>
      rw [markCallouts_text, unmarkedText?, Option.map_map]
      rfl
  | _ => cases isText

theorem unmarkParagraph?_markCallouts (nodes : List Node) :
    unmarkParagraph? (markCallouts nodes) =
      (unmarkParagraph? nodes).map fun (kind, nodes) => (kind, markCallouts nodes) := by
  rw [unmarkParagraph?_eq, unmarkParagraph?_eq]
  refine changeFirst?_map (kind_markCallouts_iff (by decide) (by decide)) ?_ nodes
  intro node isParagraph
  cases node with
  | paragraph children =>
      rw [markCallouts_paragraph, unmarkedParagraph?, unmarkedParagraph?, unmarkText?_markCallouts,
        Option.map_map, Option.map_map]
      simp only [Function.comp_def, markCallouts_paragraph]
  | _ => cases isParagraph

/-- It makes no difference whether a node is looked at before what is in it or after. -/
theorem markCallouts_eq (node : Node) :
    node.markCallouts = node.announce.withChildren (markCallouts node.announce.children) := by
  by_cases isQuote : node.kind = .blockquote
  · cases node with
    | blockquote children =>
        rw [markCallouts_eq_announce]
        simp only [Node.withChildren, Node.children, Node.announce, unmarkParagraph?_markCallouts]
        cases unmarkParagraph? children <;> rfl
    | _ => cases isQuote
  · rw [announce_of_kind_ne isQuote, markCallouts_of_kind_ne isQuote]

/-! Places in the tree. -/

def Node.label (node : Node) : Node × Nat := (node.withChildren [], node.children.length)

def Node.labelAt? (root : Node) (path : List Nat) : Option (Node × Nat) :=
  (root.at? path).map Node.label

theorem labelAt?_cons (root : Node) (index : Nat) (path : List Nat) :
    root.labelAt? (index :: path) = root.children[index]?.bind fun child => child.labelAt? path :=
  Option.map_bind

theorem label_markCallouts (node : Node) : node.markCallouts.label = node.announce.label := by
  rw [markCallouts_eq]
  cases node.announce <;> simp [Node.label, Node.withChildren, Node.children, markCallouts]

theorem children_markCallouts (node : Node) :
    node.markCallouts.children = markCallouts node.announce.children := by
  rw [markCallouts_eq]
  cases node.announce <;> rfl

theorem labelAt?_markCallouts_cons (root : Node) (index : Nat) (path : List Nat) :
    root.markCallouts.labelAt? (index :: path) =
      root.announce.children[index]?.bind fun child => child.markCallouts.labelAt? path := by
  rw [labelAt?_cons, children_markCallouts, markCallouts, List.getElem?_map, Option.bind_map]
  rfl

theorem getElem?_append_cons_length {α : Type} (before after : List α) (element : α) :
    (before ++ element :: after)[before.length]? = some element := by
  simp

theorem getElem?_append_cons_of_ne {α : Type} {before after : List α} {old new : α} {index : Nat}
    (other : index ≠ before.length) :
    (before ++ new :: after)[index]? = (before ++ old :: after)[index]? := by
  rcases Nat.lt_or_gt_of_ne other with less | greater
  · rw [List.getElem?_append_left less, List.getElem?_append_left less]
  · obtain ⟨more, rfl⟩ := Nat.exists_eq_add_of_lt greater
    simp [List.getElem?_append_right, Nat.add_assoc]

section

variable (announces : Announces node paragraph text kind value)

include announces

theorem Announces.label_markCallouts :
    node.markCallouts.label = (.callout kind [], node.children.length) := by
  rw [Markdown.label_markCallouts]
  cases announces with
  | mk firstParagraph firstText announced =>
      rw [announce_quote firstParagraph firstText announced]
      simp [Node.label, Node.withChildren, Node.children]

theorem Announces.at?_text : node.at? [paragraph, text] = some (.text value) := by
  cases announces with
  | mk firstParagraph firstText announced => simp [Node.at?, Node.children]

theorem Announces.labelAt?_text :
    node.markCallouts.labelAt? [paragraph, text] = some (.text (kind.unmark value), 0) := by
  rw [labelAt?_markCallouts_cons]
  cases announces with
  | mk firstParagraph firstText announced =>
      rw [announce_quote firstParagraph firstText announced, Node.children,
        getElem?_append_cons_length, Option.bind_some, markCallouts_paragraph, labelAt?_cons,
        Node.children, markCallouts, List.getElem?_map, getElem?_append_cons_length]
      rfl

theorem Announces.labelAt?_other (other : ¬(index = paragraph ∧ path = [text])) :
    node.markCallouts.labelAt? (index :: path) =
      node.children[index]?.bind fun child => child.markCallouts.labelAt? path := by
  rw [labelAt?_markCallouts_cons]
  cases announces with
  | @mk before after inner rest _ _ firstParagraph firstText announced =>
      rw [announce_quote firstParagraph firstText announced]
      by_cases inParagraph : index = before.length
      · rw [inParagraph, Node.children, Node.children, getElem?_append_cons_length,
          getElem?_append_cons_length, Option.bind_some, Option.bind_some, markCallouts_paragraph,
          markCallouts_paragraph]
        cases path with
        | nil => simp [Node.labelAt?, Node.label, Node.withChildren, Node.children, markCallouts]
        | cons place path =>
            rw [labelAt?_cons, labelAt?_cons, Node.children, Node.children, markCallouts,
              markCallouts, List.getElem?_map, List.getElem?_map]
            by_cases isText : place = inner.length
            · cases path with
              | nil => exact absurd ⟨inParagraph, isText ▸ rfl⟩ other
              | cons => simp [isText, markCallouts_text, labelAt?_cons, Node.children]
            · rw [getElem?_append_cons_of_ne isText]
      · exact congrArg (Option.bind · _) (getElem?_append_cons_of_ne inParagraph)

end

/-- What is made of a node below a root is made of it by itself, if it is not the text by which the
root announces a callout. -/
theorem labelAt?_step (root : Node) (index : Nat) (path : List Nat) :
    (∃ text kind value, Announces root index text kind value ∧ path = [text]) ∨
      root.markCallouts.labelAt? (index :: path) =
        root.children[index]?.bind fun child => child.markCallouts.labelAt? path := by
  rcases announce_cases root with same | ⟨paragraph, text, kind, value, announces⟩
  · exact .inr (by rw [labelAt?_markCallouts_cons, same])
  · by_cases isText : index = paragraph ∧ path = [text]
    · exact .inl ⟨text, kind, value, isText.1 ▸ announces, isText.2⟩
    · exact .inr (announces.labelAt?_other isText)

def AnnouncesAt (root : Node) (path : List Nat) (paragraph text : Nat) (kind : CalloutKind)
    (value : String) : Prop :=
  ∃ quote, root.at? path = some quote ∧ Announces quote paragraph text kind value

theorem announcesAt_nil :
    AnnouncesAt root [] paragraph text kind value ↔ Announces root paragraph text kind value := by
  simp [AnnouncesAt]

theorem announcesAt_cons : AnnouncesAt root (index :: path) paragraph text kind value ↔
    ∃ child, root.children[index]? = some child ∧
      AnnouncesAt child path paragraph text kind value := by
  simp only [AnnouncesAt, Node.at?, Option.bind_eq_some_iff]
  constructor
  · rintro ⟨quote, ⟨child, found, reached⟩, announces⟩
    exact ⟨child, found, quote, reached, announces⟩
  · rintro ⟨child, found, quote, reached, announces⟩
    exact ⟨quote, ⟨child, found, reached⟩, announces⟩

theorem count_markCallouts (root : Node) (path : List Nat) :
    (root.markCallouts.labelAt? path).map Prod.snd = (root.labelAt? path).map Prod.snd := by
  induction path generalizing root with
  | nil =>
      rcases announce_cases root with same | ⟨_, _, _, _, announces⟩
      · simp [Node.labelAt?, label_markCallouts, same]
      · rw [Node.labelAt?, Node.at?_nil, Option.map_some, announces.label_markCallouts]
        rfl
  | cons index path induction =>
      rcases labelAt?_step root index path with ⟨text, kind, value, announces, rfl⟩ | step
      · rw [announces.labelAt?_text, Node.labelAt?, announces.at?_text]
        rfl
      · rw [step, labelAt?_cons]
        cases root.children[index]? with
        | none => rfl
        | some child => exact induction child

theorem AnnouncesAt.labelAt?_quote (announces : AnnouncesAt root path paragraph text kind value) :
    (root.markCallouts.labelAt? path).map Prod.fst = some (.callout kind []) := by
  induction path generalizing root with
  | nil => simp [Node.labelAt?, (announcesAt_nil.1 announces).label_markCallouts]
  | cons index path induction =>
      obtain ⟨child, found, below⟩ := announcesAt_cons.1 announces
      rcases labelAt?_step root index path with ⟨_, _, _, above, rfl⟩ | step
      · -- the text by which the root announces a callout is no quote
        obtain ⟨quote, reached, isQuote⟩ := announces
        rw [above.at?_text] at reached
        cases reached
        cases isQuote
      · rw [step, found]
        exact induction below

theorem AnnouncesAt.labelAt?_text (announces : AnnouncesAt root path paragraph text kind value) :
    root.markCallouts.labelAt? (path ++ [paragraph, text]) =
      some (.text (kind.unmark value), 0) := by
  induction path generalizing root with
  | nil => exact (announcesAt_nil.1 announces).labelAt?_text
  | cons index path induction =>
      obtain ⟨child, found, below⟩ := announcesAt_cons.1 announces
      rcases labelAt?_step root index (path ++ [paragraph, text]) with ⟨_, _, _, -, short⟩ | step
      · simpa using congrArg List.length short
      · rw [List.cons_append, step, found]
        exact induction below

/-- The node at a path is neither a quote that announces a callout nor a text by which one does. -/
structure IsUninvolved (root : Node) (path : List Nat) : Prop where
  quote : ∀ {paragraph text kind value}, ¬AnnouncesAt root path paragraph text kind value
  text : ∀ {quote paragraph text kind value}, AnnouncesAt root quote paragraph text kind value →
    path ≠ quote ++ [paragraph, text]

theorem IsUninvolved.labelAt? (uninvolved : IsUninvolved root path) :
    root.markCallouts.labelAt? path = root.labelAt? path := by
  induction path generalizing root with
  | nil =>
      rcases announce_cases root with same | ⟨_, _, _, _, announces⟩
      · simp [Node.labelAt?, label_markCallouts, same]
      · exact absurd (announcesAt_nil.2 announces) uninvolved.quote
  | cons index path induction =>
      rcases labelAt?_step root index path with ⟨_, _, _, announces, rfl⟩ | step
      · exact absurd rfl (uninvolved.text (announcesAt_nil.2 announces))
      · rw [step, labelAt?_cons]
        cases found : root.children[index]? with
        | none => rfl
        | some child =>
            refine induction ⟨fun announces => ?_, fun announces same => ?_⟩
            · exact uninvolved.quote (announcesAt_cons.2 ⟨child, found, announces⟩)
            · refine uninvolved.text (announcesAt_cons.2 ⟨child, found, announces⟩) ?_
              rw [same, List.cons_append]

/-- The quotes of a tree that announce a callout are callouts, and the texts by which they do it are
without the marker. All other nodes have their kind and their fields as before, and every node has
as many children as before. -/
structure MarksCallouts (root marked : Node) : Prop where
  count : ∀ path, (marked.at? path).map (fun node => node.children.length) =
    (root.at? path).map fun node => node.children.length
  quote : ∀ {path paragraph text kind value}, AnnouncesAt root path paragraph text kind value →
    ∃ inside, marked.at? path = some (.callout kind inside)
  text : ∀ {path paragraph text kind value}, AnnouncesAt root path paragraph text kind value →
    root.at? (path ++ [paragraph, text]) = some (.text value) ∧
      ∃ left, marked.at? (path ++ [paragraph, text]) = some (.text left) ∧
        Leaves kind.marker.toList value.toList left.toList
  other : ∀ {path}, IsUninvolved root path →
    (marked.at? path).map (Node.withChildren []) = (root.at? path).map (Node.withChildren [])

theorem eq_callout_of_withChildren {inside : List Node}
    (same : node.withChildren [] = .callout kind inside) :
    ∃ children, node = .callout kind children := by
  cases node <;> simp_all [Node.withChildren]

theorem eq_text_of_withChildren (same : node.withChildren [] = .text value) :
    node = .text value := by
  cases node <;> simp_all [Node.withChildren]

theorem map_snd_labelAt? (root : Node) (path : List Nat) :
    (root.labelAt? path).map Prod.snd =
      (root.at? path).map fun node => node.children.length :=
  Option.map_map ..

theorem map_fst_labelAt? (root : Node) (path : List Nat) :
    (root.labelAt? path).map Prod.fst = (root.at? path).map (Node.withChildren []) :=
  Option.map_map ..

theorem marksCallouts_markCallouts (root : Node) : MarksCallouts root root.markCallouts where
  count := fun path => by
    rw [← map_snd_labelAt?, ← map_snd_labelAt?, count_markCallouts]
  quote := fun announces => by
    have label := announces.labelAt?_quote
    rw [map_fst_labelAt?] at label
    obtain ⟨node, reached, same⟩ := Option.map_eq_some_iff.1 label
    obtain ⟨inside, rfl⟩ := eq_callout_of_withChildren same
    exact ⟨inside, reached⟩
  text := fun {path _ _ kind value} announces => by
    obtain ⟨quote, found, isQuote⟩ := announces
    refine ⟨by rw [Node.at?_append, found]; exact isQuote.at?_text, kind.unmark value, ?_,
      leaves_unmark kind value⟩
    have label := AnnouncesAt.labelAt?_text ⟨quote, found, isQuote⟩
    obtain ⟨node, reached, same⟩ := Option.map_eq_some_iff.1 label
    rw [reached, eq_text_of_withChildren (congrArg Prod.fst same)]
  other := fun uninvolved => by
    rw [← map_fst_labelAt?, ← map_fst_labelAt?, uninvolved.labelAt?]

/-! Once is enough. -/

def IsSettled (node : Node) : Prop := node.markCallouts.markCallouts = node.markCallouts

theorem markCallouts_eq_self_iff :
    markCallouts (markCallouts nodes) = markCallouts nodes ↔ ∀ node ∈ nodes, IsSettled node := by
  simp only [markCallouts, List.map_map, List.map_inj_left]
  rfl

theorem isSettled_of_children (settled : ∀ child ∈ node.announce.children, IsSettled child) :
    IsSettled node := by
  have fixed := children_markCallouts node ▸ markCallouts_eq_self_iff.2 settled
  rw [IsSettled, markCallouts_eq_announce, fixed, Node.withChildren_children,
    markCallouts_eq_announce node, announce_announce]

theorem isSettled_paragraph_iff :
    IsSettled (.paragraph children) ↔ ∀ child ∈ children, IsSettled child := by
  rw [IsSettled, markCallouts_paragraph, markCallouts_paragraph, Node.paragraph.injEq,
    markCallouts_eq_self_iff]

theorem isSettled (node : Node) : IsSettled node := by
  induction node using Node.children_induction with
  | step node induction =>
      apply isSettled_of_children
      rcases announce_cases node with same | ⟨_, _, _, _, announces⟩
      · rwa [same]
      · cases announces with
        | @mk before after inner rest kind value firstParagraph firstText announced =>
            rw [announce_quote firstParagraph firstText announced]
            simp only [Node.children, List.forall_mem_append, List.forall_mem_cons] at induction ⊢
            obtain ⟨settledBefore, settledParagraph, settledAfter⟩ := induction
            -- the text that has lost the marker is still a text
            have inParagraph := isSettled_paragraph_iff.1 settledParagraph
            simp only [List.forall_mem_append, List.forall_mem_cons] at inParagraph
            refine ⟨settledBefore, isSettled_paragraph_iff.2 ?_, settledAfter⟩
            simp only [List.forall_mem_append, List.forall_mem_cons]
            exact ⟨inParagraph.1, rfl, inParagraph.2.2⟩

theorem takeFrontMatter_cons (other : node.kind ≠ .yaml) (rest : List Node) :
    takeFrontMatter (node :: rest) =
      ((takeFrontMatter rest).1, node :: (takeFrontMatter rest).2) := by
  cases node <;> first | rfl | exact absurd rfl other

theorem takeFrontMatter_markCallouts (nodes : List Node) :
    takeFrontMatter (markCallouts nodes) =
      ((takeFrontMatter nodes).1, markCallouts (takeFrontMatter nodes).2) := by
  induction nodes with
  | nil => rfl
  | cons node rest induction =>
      rw [markCallouts] at induction ⊢
      by_cases isYaml : node.kind = .yaml
      · cases node with
        | yaml value => rfl
        | _ => cases isYaml
      · have stillOther : node.markCallouts.kind ≠ .yaml :=
          mt (kind_markCallouts_iff (by decide) (by decide) node).1 isYaml
        rw [List.map_cons, takeFrontMatter_cons stillOther, induction, takeFrontMatter_cons isYaml]
        rfl

/-- Looking for callouts changes nothing but the quotes that announce one and the texts by which
they do it, which the tree as it was decides on. Doing it twice is doing it once, and it does not
matter whether front matter is taken out before or after. -/
theorem markCallouts_isLocal (children : List Node) :
    MarksCallouts (.root children) (.root (markCallouts children)) ∧
      markCallouts (markCallouts children) = markCallouts children ∧
      takeFrontMatter (markCallouts children) =
        ((takeFrontMatter children).1, markCallouts (takeFrontMatter children).2) := by
  have marked : (Node.root children).markCallouts = .root (markCallouts children) :=
    markCallouts_of_kind_ne (by simp [Node.kind])
  exact ⟨marked ▸ marksCallouts_markCallouts (.root children),
    markCallouts_eq_self_iff.2 fun node _ => isSettled node,
    takeFrontMatter_markCallouts children⟩

theorem markCallouts_isLocal_again :
    let children : List Node :=
      [.yaml "a", .blockquote [.paragraph [.strong [.text "b"], .text "[!N[!NOTE]OTE]"],
        .blockquote [.paragraph [.text "[!NOTE] [!WARNING]"]]]]
    let marked : Node := .root (markCallouts children)
    AnnouncesAt (.root children) [1] 0 1 .info "[!N[!NOTE]OTE]" ∧
      AnnouncesAt (.root children) [1, 1] 0 0 .warning "[!NOTE] [!WARNING]" ∧
      (∃ inside, marked.at? [1] = some (.callout .info inside)) ∧
      (∃ left, marked.at? [1, 0, 1] = some (.text left) ∧
        Leaves "[!NOTE]".toList "[!N[!NOTE]OTE]".toList left.toList) ∧
      marked.at? [1, 0, 1] = some (.text "[!NOTE]") ∧
      (∃ inside, marked.at? [1, 1] = some (.callout .warning inside)) ∧
      takeFrontMatter (markCallouts children) =
        ("a", markCallouts (takeFrontMatter children).2) := by
  intro children marked
  obtain ⟨isMarked, -, front⟩ := markCallouts_isLocal children
  have outer : AnnouncesAt (.root children) [1] 0 1 .info "[!N[!NOTE]OTE]" :=
    ⟨_, rfl, @Announces.mk [] _ [_] [] _ _ (by simp) (by simp [Node.kind])
      (announced?_eq_some_iff.1 (by decide))⟩
  have inner : AnnouncesAt (.root children) [1, 1] 0 0 .warning "[!NOTE] [!WARNING]" :=
    ⟨_, rfl, @Announces.mk [] [] [] [] _ _ (by simp) (by simp)
      (announced?_eq_some_iff.1 (by decide))⟩
  exact ⟨outer, inner, isMarked.quote outer, (isMarked.text outer).2, rfl,
    isMarked.quote inner, front⟩

end EditorMarkdown.Markdown
