import EditorMarkdown.Markdown.PlainText
import EditorMarkdown.Proofs.Markdown.Callouts
import EditorMarkdown.Proofs.Text.Words

/-!
The words that a markdown tree shows: those of its texts and its inline code, at any depth, except
that a list shows nothing but its items. Looking for callouts leaves the words of a tree as they
are.
-/

namespace EditorMarkdown.Markdown

open Text (IsWord Holds)

def Node.isWrapper : Node → Bool
  | .root _ | .paragraph _ | .blockquote _ | .callout _ _ | .listItem _ _ _ | .emphasis _
  | .strong _ | .delete _ | .link _ _ _ => true
  | _ => false

/-- Nodes show words in the given order. Some may show none of theirs; directly in a list all but
the items have to. -/
inductive Shows : Bool → List Node → List (List Char) → Prop
  | nil {inList : Bool} : Shows inList [] []
  | skip {inList : Bool} {nodes : List Node} {words : List (List Char)} (node : Node)
      (rest : Shows inList nodes words) : Shows inList (node :: nodes) words
  | text {nodes : List Node} {words : List (List Char)} {value : String}
      (isWord : IsWord value.toList) (rest : Shows false nodes words) :
      Shows false (.text value :: nodes) (value.toList :: words)
  | code {nodes : List Node} {inner words : List (List Char)} {value : String}
      (held : Holds inner value.toList) (rest : Shows false nodes words) :
      Shows false (.inlineCode value :: nodes) (inner ++ words)
  | within {node : Node} {nodes : List Node} {inner words : List (List Char)}
      (wrapper : node.isWrapper) (inside : Shows false node.children inner)
      (rest : Shows false nodes words) : Shows false (node :: nodes) (inner ++ words)
  | list {ordered spread : Bool} {start : Option UInt32} {items nodes : List Node}
      {inner words : List (List Char)} (inside : Shows true items inner)
      (rest : Shows false nodes words) :
      Shows false (.list ordered start spread items :: nodes) (inner ++ words)
  | item {spread : Bool} {checked : Option Bool} {children nodes : List Node}
      {inner words : List (List Char)} (inside : Shows false children inner)
      (rest : Shows true nodes words) :
      Shows true (.listItem spread checked children :: nodes) (inner ++ words)

variable {inList : Bool} {nodes others children : List Node} {words inner more : List (List Char)}
  {node : Node} {kind : CalloutKind}

theorem shows_nil (inList : Bool) (nodes : List Node) : Shows inList nodes [] := by
  induction nodes with
  | nil => exact .nil
  | cons node _ induction => exact .skip node induction

theorem Shows.append (first : Shows inList nodes words) (second : Shows inList others more) :
    Shows inList (nodes ++ others) (words ++ more) := by
  induction first with
  | nil => exact second
  | skip node _ induction => exact .skip node (induction second)
  | text isWord _ induction => exact .text isWord (induction second)
  | code held _ induction =>
      rw [List.append_assoc]
      exact .code held (induction second)
  | within wrapper inside _ _ induction =>
      rw [List.append_assoc]
      exact .within wrapper inside (induction second)
  | list inside _ _ induction =>
      rw [List.append_assoc]
      exact .list inside (induction second)
  | item inside _ _ induction =>
      rw [List.append_assoc]
      exact .item inside (induction second)

/-! Single nodes. -/

theorem Shows.enclosed (wrapper : node.isWrapper) (inside : Shows false node.children words) :
    Shows false [node] words := by
  simpa using Shows.within wrapper inside .nil

theorem Shows.coded {value : String} (held : Holds words value.toList) :
    Shows false [.inlineCode value] words := by
  simpa using Shows.code held .nil

theorem Shows.listed {items : List Node} (ordered spread : Bool) (start : Option UInt32)
    (inside : Shows true items words) : Shows false [.list ordered start spread items] words := by
  simpa using Shows.list inside .nil

theorem Shows.itemized (spread : Bool) (checked : Option Bool)
    (inside : Shows false children words) :
    Shows true [.listItem spread checked children] words := by
  simpa using Shows.item inside .nil

theorem Shows.of_cons (shown : Shows inList (node :: nodes) words) :
    ∃ inner more, words = inner ++ more ∧ Shows inList [node] inner ∧ Shows inList nodes more := by
  cases shown with
  | skip _ rest => exact ⟨[], words, rfl, .skip node .nil, rest⟩
  | @text _ words value isWord rest => exact ⟨[value.toList], words, rfl, .text isWord .nil, rest⟩
  | @code _ inner words _ held rest =>
      exact ⟨inner, words, rfl, .coded held, rest⟩
  | @within _ _ inner words wrapper inside rest =>
      exact ⟨inner, words, rfl, .enclosed wrapper inside, rest⟩
  | @list _ _ _ _ _ inner words inside rest =>
      exact ⟨inner, words, rfl, .listed _ _ _ inside, rest⟩
  | @item _ _ _ _ inner words inside rest =>
      exact ⟨inner, words, rfl, .itemized _ _ inside, rest⟩

theorem Shows.of_append (shown : Shows inList (nodes ++ others) words) :
    ∃ inner more, words = inner ++ more ∧ Shows inList nodes inner ∧ Shows inList others more := by
  induction nodes generalizing words with
  | nil => exact ⟨[], words, rfl, .nil, shown⟩
  | cons node nodes induction =>
      obtain ⟨first, rest, rfl, alone, following⟩ := shown.of_cons
      obtain ⟨inner, more, rfl, before, after⟩ := induction following
      exact ⟨first ++ inner, more, by simp, alone.append before, after⟩

theorem Shows.replace {before after : List Node} {other : Node}
    (shown : Shows inList (before ++ node :: after) words)
    (same : ∀ words, Shows inList [node] words → Shows inList [other] words) :
    Shows inList (before ++ other :: after) words := by
  obtain ⟨first, rest, rfl, left, right⟩ := shown.of_append
  obtain ⟨inner, more, rfl, alone, following⟩ := right.of_cons
  exact left.append ((same inner alone).append following)

theorem Shows.inside (wrapper : node.isWrapper) (shown : Shows false [node] words) :
    Shows false node.children words := by
  cases shown with
  | skip _ rest =>
      cases rest
      exact shows_nil false node.children
  | within _ inside rest =>
      cases rest
      simpa using inside
  | text | code | list => cases wrapper

/-! Without markup. -/

theorem plainText_of_isWrapper (wrapper : node.isWrapper) :
    node.plainText = plainTexts node.children := by
  cases node <;> first | rfl | cases wrapper

theorem Shows.holds_plainTexts (shown : Shows inList nodes words) :
    Holds words (plainTexts nodes).toList := by
  induction shown with
  | nil => exact Text.holds_nil _
  | skip node _ induction =>
      rw [plainTexts, String.toList_append]
      exact induction.behind _
  | text isWord _ induction =>
      rw [plainTexts, String.toList_append]
      exact .word isWord induction
  | code held _ induction =>
      rw [plainTexts, String.toList_append]
      exact held.append induction
  | within wrapper _ _ inside induction =>
      rw [plainTexts, plainText_of_isWrapper wrapper, String.toList_append]
      exact inside.append induction
  | list _ _ inside induction | item _ _ inside induction =>
      rw [plainTexts, Node.plainText, String.toList_append]
      exact inside.append induction

/-! Callouts. -/

/-- A word announces nothing, because the markers start with a bracket. -/
theorem announced?_of_isWord {value : String} (isWord : IsWord value.toList) :
    CalloutKind.announced? value = none := by
  refine List.find?_eq_none.2 fun kind _ contains => ?_
  have bracket : '[' ∈ kind.marker.toList := by cases kind <;> decide
  have inText := (Text.containsPart_iff.1 contains).subset bracket
  exact absurd (isWord.letters '[' inText) (by decide)

theorem Shows.unmarkText? (shown : Shows false nodes words)
    (unmarked : unmarkText? nodes = some (kind, others)) : Shows false others words := by
  obtain ⟨before, value, after, -, announced, rfl, rfl⟩ := unmarkText?_eq_some unmarked
  refine shown.replace fun words alone => ?_
  cases alone with
  | skip _ rest => exact .skip _ rest
  | text isWord _ => simp [announced?_of_isWord isWord] at announced
  | within wrapper _ _ => cases wrapper

theorem Shows.unmarkParagraph? (shown : Shows false nodes words)
    (unmarked : unmarkParagraph? nodes = some (kind, others)) : Shows false others words := by
  obtain ⟨before, children, changed, after, -, inside, rfl, rfl⟩ :=
    unmarkParagraph?_eq_some unmarked
  exact shown.replace fun words alone => .enclosed rfl ((alone.inside rfl).unmarkText? inside)

theorem Shows.announce (wrapper : node.isWrapper) (inside : Shows false node.children words) :
    node.announce.isWrapper ∧ Shows false node.announce.children words := by
  cases node with
  | blockquote children =>
      cases unmarked : Markdown.unmarkParagraph? children with
      | none => simpa only [Node.announce, unmarked] using ⟨wrapper, inside⟩
      | some found =>
          simp only [Node.announce, unmarked]
          exact ⟨rfl, inside.unmarkParagraph? unmarked⟩
  | _ => exact ⟨wrapper, inside⟩

theorem isWrapper_withChildren (wrapper : node.isWrapper) (children : List Node) :
    (node.withChildren children).isWrapper ∧ (node.withChildren children).children = children := by
  cases node <;> first | exact ⟨rfl, rfl⟩ | cases wrapper

theorem Shows.markCallouts (shown : Shows inList nodes words) :
    Shows inList (markCallouts nodes) words := by
  induction shown with
  | nil => exact .nil
  | skip node _ induction => exact .skip node.markCallouts induction
  | text isWord _ induction => exact .text isWord induction
  | code held _ induction => exact .code held induction
  | @within node nodes inner words wrapper _ _ inside induction =>
      obtain ⟨still, same⟩ := isWrapper_withChildren wrapper (Markdown.markCallouts node.children)
      rw [← same] at inside
      obtain ⟨outer, announced⟩ := inside.announce still
      rw [← markCallouts_eq_announce] at outer announced
      exact .within outer announced induction
  | @list ordered spread start items nodes inner words _ _ inside induction =>
      have rebuilt : (Node.list ordered start spread items).markCallouts =
          .list ordered start spread (Markdown.markCallouts items) :=
        markCallouts_of_kind_ne (by simp [Node.kind])
      rw [Markdown.markCallouts, List.map_cons, rebuilt]
      exact .list inside induction
  | @item spread checked children nodes inner words _ _ inside induction =>
      have rebuilt : (Node.listItem spread checked children).markCallouts =
          .listItem spread checked (Markdown.markCallouts children) :=
        markCallouts_of_kind_ne (by simp [Node.kind])
      rw [Markdown.markCallouts, List.map_cons, rebuilt]
      exact .item inside induction

end EditorMarkdown.Markdown
