import EditorMarkdown.Proofs.Markdown.Shown
import EditorMarkdown.Proofs.Writer.Growth

/-!
Writing loses no words. What is written for nodes holds the words that the nodes show, behind the
words that were there before, and no node takes away words that others have written.
-/

namespace EditorMarkdown.Writer

open Markdown (Kind Node Shows)
open Text (IsWord Holds Keeps)

/-- The words of a buffer stay, and the given ones come behind them. -/
def Adds (words : List (List Char)) (before after : Buffer) : Prop :=
  ∀ held, Holds held before.text → Holds (held ++ words) after.text

variable {words more inner : List (List Char)} {first second third buffer : Buffer}
  {piece : List Char}

theorem Adds.trans (one : Adds words first second) (two : Adds more second third) :
    Adds (words ++ more) first third := by
  intro held holds
  rw [← List.append_assoc]
  exact two _ (one held holds)

theorem adds_of_keeps (keeps : Keeps first.text second.text) : Adds [] first second := by
  intro held holds
  rw [List.append_nil]
  exact keeps held holds

theorem adds_push (holds : Holds words piece) (buffer : Buffer) :
    Adds words buffer (buffer.push piece) := by
  intro held before
  rw [Buffer.text_push]
  exact before.append holds

theorem adds_push_nothing (piece : List Char) (buffer : Buffer) :
    Adds [] buffer (buffer.push piece) :=
  adds_push (Text.holds_nil piece) buffer

theorem Adds.push (adds : Adds words first second) (piece : List Char) :
    Adds words first (second.push piece) := by
  simpa using adds.trans (adds_push_nothing piece second)

theorem Adds.of_push (adds : Adds words (buffer.push piece) second) : Adds words buffer second :=
  (adds_push_nothing piece buffer).trans adds

theorem Adds.holds (adds : Adds words first second) : Holds words second.text :=
  adds [] (Text.holds_nil _)

/-- Nothing written before is lost: an exclamation mark is no letter. -/
theorem adds_of_grows (grows : Grows first.text second.text) : Adds [] first second := by
  refine adds_of_keeps fun held holds => ?_
  rcases grows with ⟨more, grown⟩ | ⟨before, text, more, grown⟩
  · rw [← grown]
    exact holds.before more
  · rw [text] at holds
    obtain ⟨words, rest, rfl, left, right⟩ := holds.split (by decide)
    rw [← grown, right.eq_nil, List.append_nil, List.append_assoc]
    exact left.before _

theorem Adds.grows (adds : Adds words first second) (grows : Grows second.text third.text) :
    Adds words first third := by
  simpa using adds.trans (adds_of_grows grows)

theorem adds_pushCode {code : List Char} (holds : Holds words code) (buffer : Buffer) :
    Adds words buffer (buffer.pushCode code) :=
  (adds_push holds _).of_push

/-! What is written for a word is the word. -/

theorem escapeMarkup_of_letters {text : List Char} (inCell : Bool)
    (letters : ∀ c ∈ text, c.isAlpha) : escapeMarkup inCell text = text := by
  induction text with
  | nil => rfl
  | cons c rest induction =>
      have letter := letters c (by simp)
      have plain : ∀ d : Char, d.isAlpha = false → c ≠ d := fun d => Text.ne_of_isAlpha letter
      have unmarked : isMarkup c = false := by
        simp [isMarkup, plain '\\', plain '*', plain '_', plain '\x60', plain '[', plain ']',
          plain '<', plain '~']
      simp [escapeMarkup, unmarked, plain '&', plain '|',
        induction fun d member => letters d (List.mem_cons_of_mem c member)]

theorem escapeText_of_isWord {word : List Char} (isWord : IsWord word)
    (atLineStart inCell : Bool) : escapeText atLineStart inCell word = word := by
  have unmarked := escapeMarkup_of_letters inCell isWord.letters
  cases word with
  | nil => exact absurd rfl isWord.filled
  | cons c rest =>
      have letter := isWord.letters c (by simp)
      have plain : ∀ d : Char, d.isAlpha = false → c ≠ d := fun d => Text.ne_of_isAlpha letter
      have notBlank : Text.isBlank c = false := by simp [Text.isBlank, plain ' ', plain '\t']
      have noBlock : startsBlock (c :: rest) = false := by
        simp [startsBlock, plain '>', plain '#', plain '+', plain '-', plain '=']
      simp [escapeText, escapeLineStart, unmarked, notBlank, noBlock, escapeOrderedMarker,
        Text.isDigit_of_isAlpha letter]

theorem adds_word {word : List Char} (isWord : IsWord word) (inCell singleLine : Bool)
    (buffer : Buffer) :
    Adds [word] buffer (buffer.pushLines inCell singleLine (Text.splitLines word)) := by
  rw [isWord.splitLines]
  simpa [Buffer.pushLines, Buffer.pushLine, escapeText_of_isWord isWord] using
    adds_push isWord.holds buffer

theorem keeps_codeLine (inCell : Bool) (value : String) :
    Keeps value.toList (codeLine inCell value) := by
  have newlines : ∀ c : Char, c.isAlpha → (if c = '\n' then ' ' else c) = c := fun c letter =>
    if_neg (Text.ne_of_isAlpha letter (by decide))
  have bars : ∀ c : Char, c.isAlpha → (if c = '|' then ['\\', c] else [c]) = [c] :=
    fun c letter => if_neg (Text.ne_of_isAlpha letter (by decide))
  intro words holds
  have line : Holds words (value.toList.map fun c => if c = '\n' then ' ' else c) := by
    rw [List.map_eq_flatMap]
    exact Text.keeps_flatMap (fun c letter => by rw [newlines c letter]) _ words holds
  unfold codeLine
  split
  · exact Text.keeps_flatMap bars _ words line
  · exact line

theorem holds_codeSpan {value : String} (holds : Holds words value.toList) (inCell : Bool) :
    Holds words (codeSpan inCell value) := by
  have line := keeps_codeLine inCell value words holds
  exact ((line.behind _).before _).before _

theorem holds_quoteText {body : List Char} (holds : Holds words body) :
    Holds words (quoteText body) :=
  Text.keeps_prefixLines _ _ body words holds

theorem holds_calloutText {body : List Char} (holds : Holds words body) (marker : String)
    (sharesLine : Bool) : Holds words (calloutText marker sharesLine body) := by
  refine holds_quoteText ?_
  split
  · exact holds.behind _
  · split
    · next empty =>
        rw [List.isEmpty_iff.1 empty] at holds
        simpa [holds.eq_nil] using Text.holds_nil marker.toList
    · exact (holds.behind ['\n']).behind marker.toList

theorem holds_itemText {body : List Char} (holds : Holds words body) (marker : List Char)
    (checked : Option Bool) : Holds words (itemText marker checked body) :=
  (Text.keeps_indentLines _ body words holds).behind _

theorem holds_finishLine {text : List Char} (holds : Holds words text) :
    Holds words (finishLine text) := by
  unfold finishLine
  split
  · next empty =>
      rw [List.getLast?_eq_none_iff.1 empty] at holds
      exact holds
  · split
    · exact holds
    · exact holds.before ['\n']

theorem holds_tableLine {cells : List (List Char)} {cell : List Char} (member : cell ∈ cells)
    (holds : Holds words cell) {columns : Nat} (fits : cells.length ≤ columns) :
    Holds words (tableLine columns cells) := by
  obtain ⟨column, found⟩ := List.mem_iff_getElem?.1 member
  have inside : column < columns :=
    Nat.lt_of_lt_of_le (List.getElem?_eq_some_iff.1 found).1 fits
  refine (Text.holds_flatMap (List.mem_range.2 inside) ?_).behind ['|']
  rw [found]
  exact (holds.before _).behind [' ']

theorem holds_tableText {align : List (Option Markdown.Align)} {rows : List (List (List Char))}
    {row : List (List Char)} {cell : List Char} (inRows : row ∈ rows) (inRow : cell ∈ row)
    (holds : Holds words cell) : Holds words (tableText align rows) := by
  have fits := length_le_columnCount align inRows
  cases rows with
  | nil => cases inRows
  | cons head rows =>
      have line := holds_tableLine inRow holds fits
      refine Text.holds_joinLines ?_ line
      rcases List.mem_cons.1 inRows with rfl | behind
      · exact List.mem_cons_self
      · exact List.mem_cons_of_mem _ (List.mem_cons_of_mem _ (List.mem_map_of_mem behind))

/-! Writing what shows words. -/

def Writes (options : Options) (node : Node) (words : List (List Char)) : Prop :=
  ∀ scope alternate buffer, Adds words buffer (writeNode options scope alternate node buffer)

def WritesAll (options : Options) : Bool → List Node → List (List Char) → Prop
  | false, nodes, words =>
      (∀ scope buffer, Adds words buffer (writeInlines options scope nodes buffer)) ∧
        ∀ scope tight previous buffer,
          Adds words buffer (writeBlocks options scope tight previous nodes buffer)
  | true, nodes, words =>
      ∀ scope ordered alternate spread before number buffer, Adds words buffer
        (writeItems options scope ordered alternate spread before number nodes buffer)

variable {options : Options} {node : Node} {nodes : List Node}

theorem Writes.cons (writes : Writes options node inner)
    (rest : WritesAll options false nodes words) :
    WritesAll options false (node :: nodes) (inner ++ words) := by
  constructor
  · intro scope buffer
    exact (writes scope false buffer).trans (rest.1 scope _)
  · intro scope tight previous buffer
    exact (writes scope _ _).of_push.trans (rest.2 scope tight (some node) _)

theorem writesAll_item {spread : Bool} {checked : Option Bool} {children : List Node}
    (inside : WritesAll options false children inner) (rest : WritesAll options true nodes words) :
    WritesAll options true (.listItem spread checked children :: nodes) (inner ++ words) := by
  intro scope ordered alternate loose before number buffer
  simp only [writeItems]
  have body := (inside.2 (scope.enter .listItem) (!loose && !spread) none .empty).holds
  have item := holds_itemText body (options.marker ordered alternate number) checked
  exact (adds_push item _).of_push.trans (rest scope ordered alternate loose _ _ _)

theorem writesAll_skip {inList : Bool} (node : Node) (rest : WritesAll options inList nodes words) :
    WritesAll options inList (node :: nodes) words := by
  cases inList with
  | false =>
      have silent : Writes options node [] := fun scope alternate buffer =>
        adds_of_grows (grows_writeNode options scope alternate node buffer)
      exact silent.cons rest
  | true =>
      cases node with
      | listItem spread checked children =>
          have silent : WritesAll options false children [] :=
            ⟨fun _ _ => adds_of_grows (grows_writeInlines ..),
              fun _ _ _ _ => adds_of_grows (grows_writeBlocks ..)⟩
          exact writesAll_item silent rest
      | _ =>
          intro scope ordered alternate loose before number buffer
          simp only [writeItems]
          exact rest scope ordered alternate loose before number buffer

section Handled

-- only breaks may have a handler
variable (plain : ∀ kind, kind ≠ .lineBreak → options.handler? kind = none)

include plain

theorem writes_text {value : String} (isWord : IsWord value.toList) :
    Writes options (.text value) [value.toList] := by
  intro scope alternate buffer
  have handled := handled?_eq_none plain (.text value) scope alternate nofun
  simp only [writeNode, handled]
  exact adds_word isWord _ _ buffer

theorem writes_code {value : String} (held : Holds words value.toList) :
    Writes options (.inlineCode value) words := by
  intro scope alternate buffer
  have handled := handled?_eq_none plain (.inlineCode value) scope alternate nofun
  simp only [writeNode, handled]
  exact adds_pushCode (holds_codeSpan held _) buffer

theorem writes_list {ordered spread : Bool} {start : Option UInt32} {items : List Node}
    (inside : WritesAll options true items words) :
    Writes options (.list ordered start spread items) words := by
  intro scope alternate buffer
  have handled := handled?_eq_none plain (.list ordered start spread items) scope alternate nofun
  simp only [writeNode, handled]
  exact inside _ _ _ _ _ _ buffer

theorem writes_within (wrapper : node.isWrapper)
    (inside : WritesAll options false node.children words) : Writes options node words := by
  intro scope alternate buffer
  have notBreak : node.kind ≠ .lineBreak := by
    cases node <;> simp_all [Node.isWrapper, Node.kind]
  have handled := handled?_eq_none plain node scope alternate notBreak
  cases node with
  | root children =>
      simp only [writeNode, handled]
      exact inside.2 _ _ _ _
  | paragraph children =>
      simp only [writeNode, handled]
      exact inside.1 _ _
  | blockquote children =>
      simp only [writeNode, handled]
      exact adds_push (holds_quoteText (inside.2 _ _ _ _).holds) buffer
  | callout kind children =>
      simp only [writeNode, handled]
      exact adds_push (holds_calloutText (inside.2 _ _ _ _).holds _ _) buffer
  | listItem spread checked children =>
      simp only [writeNode, handled]
      exact adds_push (holds_itemText (inside.2 _ _ _ _).holds _ _) buffer
  | emphasis children | strong children | delete children =>
      simp only [writeNode, handled]
      exact (inside.1 _ _).of_push.push _
  | link url title children =>
      simp only [writeNode, handled]
      exact (adds_of_grows (grows_escapeBang buffer)).trans ((inside.1 _ _).of_push.push _)
  | _ => cases wrapper

theorem writesAll_of_shows {inList : Bool} (shown : Shows inList nodes words) :
    WritesAll options inList nodes words := by
  induction shown with
  | @nil inList =>
      cases inList with
      | false =>
          exact ⟨fun _ _ => adds_of_keeps (Text.keeps_self _),
            fun _ _ _ _ => adds_of_keeps (Text.keeps_self _)⟩
      | true =>
          intro scope ordered alternate loose before number buffer
          simp only [writeItems]
          exact adds_of_keeps (Text.keeps_self _)
  | skip node _ induction => exact writesAll_skip node induction
  | text isWord _ induction => exact (writes_text plain isWord).cons induction
  | code held _ induction => exact (writes_code plain held).cons induction
  | within wrapper _ _ inside induction => exact (writes_within plain wrapper inside).cons induction
  | list _ _ inside induction => exact (writes_list plain inside).cons induction
  | item _ _ inside induction => exact writesAll_item inside induction

theorem holds_rootText (shown : Shows false nodes words) :
    Holds words (rootText options nodes) :=
  holds_finishLine ((writesAll_of_shows plain shown).2 ⟨[.root]⟩ false none _).holds

end Handled

end EditorMarkdown.Writer
