import EditorMarkdown.Writer.Node

/-!
What a node is written as depends on little of what is around it. Of the text before it only the
last character matters, and only if it is a backtick, an exclamation mark or a backslash. Of the
nodes around it, unless there are handlers, only table cells and headings matter.
-/

namespace EditorMarkdown.Writer

open Markdown (Kind Node)

/-! Buffers with a text put before them. -/

/-- A text that nothing written after it looks back at. -/
def IsInert (lead : List Char) : Prop :=
  ∀ c ∈ lead.getLast?, c ≠ '`' ∧ c ≠ '!' ∧ c ≠ '\\'

theorem isInert_nil : IsInert [] := by
  intro c member
  simp at member

theorem isInert_append_newline (text : List Char) : IsInert (text ++ ['\n']) := by
  intro c member
  have equality : '\n' = c := by simpa using member
  subst equality
  decide

namespace Buffer

def after (lead : List Char) (buffer : Buffer) : Buffer :=
  { buffer with text := lead ++ buffer.text }

@[simp] theorem text_after (lead : List Char) (buffer : Buffer) :
    (buffer.after lead).text = lead ++ buffer.text := rfl

@[simp] theorem atLineStart_after (lead : List Char) (buffer : Buffer) :
    (buffer.after lead).atLineStart = buffer.atLineStart := rfl

theorem push_after (lead piece : List Char) (buffer : Buffer) :
    (buffer.after lead).push piece = (buffer.push piece).after lead := by
  cases found : piece.getLast? with
  | none => simp [List.getLast?_eq_none_iff.1 found]
  | some c => simp [push_of_getLast? found, after]

theorem startLine_after (lead : List Char) (buffer : Buffer) :
    (buffer.after lead).startLine = buffer.startLine.after lead := rfl

theorem getLast?_text_after {lead : List Char} {c : Char} (buffer : Buffer)
    (differs : lead.getLast? ≠ some c) :
    (buffer.after lead).text.getLast? = some c ↔ buffer.text.getLast? = some c := by
  cases found : buffer.text.getLast? with
  | none => simp [List.getLast?_eq_none_iff.1 found, differs]
  | some last => simp [List.getLast?_append, found]

theorem pushCode_after {lead : List Char} (inert : IsInert lead) (code : List Char)
    (buffer : Buffer) :
    (buffer.after lead).pushCode code = (buffer.pushCode code).after lead := by
  have differs : lead.getLast? ≠ some '`' := fun equality => (inert '`' equality).1 rfl
  simp only [pushCode, getLast?_text_after buffer differs, push_after]

theorem takeWhile_reverse_append {lead : List Char} (inert : IsInert lead) (text : List Char) :
    (lead ++ text).reverse.takeWhile (· = '\\') = text.reverse.takeWhile (· = '\\') := by
  have stops : lead.reverse.takeWhile (· = '\\') = [] := by
    cases reversed : lead.reverse with
    | nil => rfl
    | cons c rest =>
        have last : lead.getLast? = some c := by simp [← List.head?_reverse, reversed]
        simp [(inert c last).2.2]
  rw [List.reverse_append, List.takeWhile_append, stops, List.append_nil]
  split
  · next whole => exact ((List.takeWhile_prefix _).eq_of_length whole).symm
  · rfl

theorem endsUnescaped_append {lead : List Char} (inert : IsInert lead) (text : List Char) :
    endsUnescaped '!' (lead ++ text) = endsUnescaped '!' text := by
  have differs : lead.getLast? ≠ some '!' := fun equality => (inert '!' equality).2.1 rfl
  cases found : text.getLast? with
  | none =>
      have empty := List.getLast?_eq_none_iff.1 found
      subst empty
      simp [endsUnescaped, differs]
  | some c =>
      have filled : text ≠ [] := by
        rintro rfl
        simp at found
      simp only [endsUnescaped, List.getLast?_append, found, Option.some_or,
        List.dropLast_append_of_ne_nil filled, takeWhile_reverse_append inert]

theorem escapeBang_after {lead : List Char} (inert : IsInert lead) (buffer : Buffer) :
    (buffer.after lead).escapeBang = buffer.escapeBang.after lead := by
  simp only [escapeBang, text_after, endsUnescaped_append inert]
  split
  · next ends =>
      have filled : buffer.text ≠ [] := by
        intro empty
        simp [endsUnescaped, empty] at ends
      rw [← push_after]
      simp [after, List.dropLast_append_of_ne_nil filled]
  · rfl

theorem pushLine_after (lead : List Char) (inCell encodeEnd : Bool) (line : List Char)
    (buffer : Buffer) :
    (buffer.after lead).pushLine inCell encodeEnd line =
      (buffer.pushLine inCell encodeEnd line).after lead := by
  simp only [pushLine, atLineStart_after, push_after]

theorem pushLines_after (lead : List Char) (inCell singleLine : Bool) :
    ∀ (lines : List (List Char)) (buffer : Buffer),
      (buffer.after lead).pushLines inCell singleLine lines =
        (buffer.pushLines inCell singleLine lines).after lead
  | [], _ => rfl
  | [line], buffer => pushLine_after lead inCell false line buffer
  | line :: next :: lines, buffer => by
      simp only [pushLines, pushLine_after, push_after]
      exact pushLines_after lead inCell singleLine (next :: lines) _

theorem closeHeading_after (lead : List Char) (start : Nat) (buffer : Buffer) :
    (buffer.after lead).closeHeading (lead.length + start) =
      (buffer.closeHeading start).after lead := by
  simp [closeHeading, after, List.take_append, List.drop_append, List.take_of_length_le,
    List.drop_eq_nil_of_le]

end Buffer

/-! Writing after a text that nothing looks back at. -/

theorem writeNode_of_handled {options : Options} {scope : Scope} {alternate : Bool} {node : Node}
    {text : List Char}
    (handled : (if alternate then none else options.handled? scope node) = some text)
    (buffer : Buffer) : writeNode options scope alternate node buffer = buffer.push text := by
  unfold writeNode
  rw [handled]

mutual
theorem writeNode_after (options : Options) {lead : List Char} (inert : IsInert lead)
    (scope : Scope) (alternate : Bool) : ∀ (node : Node) (buffer : Buffer),
      writeNode options scope alternate node (buffer.after lead) =
        (writeNode options scope alternate node buffer).after lead := by
  intro node buffer
  cases handled : if alternate then none else options.handled? scope node with
  | some text =>
      rw [writeNode_of_handled handled, writeNode_of_handled handled]
      exact Buffer.push_after lead text buffer
  | none =>
      cases node with
      | root children =>
          simp only [writeNode, handled]
          exact writeBlocks_after options inert _ false none children buffer
      | heading depth children =>
          simp only [writeNode, handled, Buffer.push_after, Buffer.startLine_after,
            writeInlines_after options inert _ children, Buffer.text_after, List.length_append,
            Buffer.closeHeading_after]
      | paragraph children | tableCell children =>
          simp only [writeNode, handled]
          exact writeInlines_after options inert _ children buffer
      | list ordered start spread children =>
          simp only [writeNode, handled]
          exact writeItems_after options inert _ ordered alternate spread [] _ children buffer
      | text value =>
          simp only [writeNode, handled]
          exact Buffer.pushLines_after lead _ _ _ buffer
      | emphasis children | strong children | delete children =>
          simp only [writeNode, handled, Buffer.push_after,
            writeInlines_after options inert _ children]
      | inlineCode value =>
          simp only [writeNode, handled]
          exact Buffer.pushCode_after inert _ buffer
      | link url title children =>
          simp only [writeNode, handled, Buffer.escapeBang_after inert, Buffer.push_after,
            writeInlines_after options inert _ children]
      | thematicBreak | blockquote _ | callout _ _ | listItem _ _ _ | code _ _ _ | table _ _
      | tableRow _ | html _ | yaml _ | lineBreak | image _ _ _ =>
          simp only [writeNode, handled, Buffer.push_after]

theorem writeInlines_after (options : Options) {lead : List Char} (inert : IsInert lead)
    (scope : Scope) : ∀ (nodes : List Node) (buffer : Buffer),
      writeInlines options scope nodes (buffer.after lead) =
        (writeInlines options scope nodes buffer).after lead
  | [], _ => rfl
  | node :: rest, buffer => by
      rw [writeInlines, writeInlines, writeNode_after options inert scope false node,
        writeInlines_after options inert scope rest]

theorem writeBlocks_after (options : Options) {lead : List Char} (inert : IsInert lead)
    (scope : Scope) (tight : Bool) :
    ∀ (previous : Option Node) (nodes : List Node) (buffer : Buffer),
      writeBlocks options scope tight previous nodes (buffer.after lead) =
        (writeBlocks options scope tight previous nodes buffer).after lead
  | _, [], _ => rfl
  | previous, node :: rest, buffer => by
      rw [writeBlocks, writeBlocks, Buffer.push_after, writeNode_after options inert scope _ node,
        writeBlocks_after options inert scope tight (some node) rest]

theorem writeItems_after (options : Options) {lead : List Char} (inert : IsInert lead)
    (scope : Scope) (ordered alternate spread : Bool) :
    ∀ (before : List Char) (number : UInt32) (nodes : List Node) (buffer : Buffer),
      writeItems options scope ordered alternate spread before number nodes (buffer.after lead) =
        (writeItems options scope ordered alternate spread before number nodes buffer).after lead
  | _, _, [], _ => by simp only [writeItems]
  | before, number, node :: rest, buffer => by
      cases node with
      | listItem itemSpread checked children =>
          simp only [writeItems, Buffer.push_after]
          rw [writeItems_after options inert scope ordered alternate spread _ _ rest]
      | _ =>
          simp only [writeItems]
          exact writeItems_after options inert scope ordered alternate spread _ _ rest _
end

theorem text_heading (options : Options) (scope : Scope) (depth : UInt8) (children : List Node)
    (buffer : Buffer) :
    let start := (buffer.push (List.replicate (headingDepth depth) '#' ++ [' '])).startLine
    ((writeInlines options scope children start).closeHeading start.text.length).text =
      start.text ++
        escapeClosingHashes (writeInlines options scope children (.fresh true)).text := by
  intro start
  have inert : IsInert start.text := by
    intro c last
    have space : c = ' ' := by
      simpa [start, Buffer.startLine, ← List.append_assoc, eq_comm] using last
    subst space
    decide
  have apart : start = (Buffer.fresh true).after start.text := by
    simp [start, Buffer.after, Buffer.fresh, Buffer.startLine]
  have written : writeInlines options scope children start =
      (writeInlines options scope children (.fresh true)).after start.text := by
    rw [← writeInlines_after options inert, ← apart]
  rw [written, Buffer.closeHeading, Buffer.text_after, List.take_left, List.drop_left]

/-! Writing in scopes that put text into places of the same sort. -/

/-- Whether two scopes are alike in a table cell and in a heading. -/
structure Scope.Agrees (first second : Scope) : Prop where
  tableCell : first.within .tableCell = second.within .tableCell
  heading : first.within .heading = second.within .heading

namespace Scope.Agrees

theorem enter {first second : Scope} (agrees : first.Agrees second) (kind : Kind) :
    (first.enter kind).Agrees (second.enter kind) where
  tableCell := by simp [agrees.tableCell]
  heading := by simp [agrees.heading]

theorem isSingleLine {first second : Scope} (agrees : first.Agrees second) :
    first.isSingleLine = second.isSingleLine := by
  simp only [Scope.isSingleLine, agrees.tableCell, agrees.heading]

theorem breakText {first second : Scope} (agrees : first.Agrees second) :
    first.breakText = second.breakText := by
  simp only [Scope.breakText, agrees.isSingleLine]

end Scope.Agrees

theorem handled?_of_bare {options : Options} (bare : options.handlers = []) (scope : Scope)
    (node : Node) : options.handled? scope node = none := by
  simp [Options.handled?, Options.handler?, bare]

theorem handled?_eq_none {options : Options}
    (plain : ∀ kind, kind ≠ .lineBreak → options.handler? kind = none) (node : Node)
    (scope : Scope) (alternate : Bool) (notBreak : node.kind ≠ .lineBreak) :
    (if alternate then none else options.handled? scope node) = none := by
  simp [Options.handled?, plain _ notBreak]

mutual
theorem writeNode_agrees {options : Options} (bare : options.handlers = []) (alternate : Bool) :
    ∀ (node : Node) {first second : Scope}, first.Agrees second → ∀ buffer : Buffer,
      writeNode options first alternate node buffer =
        writeNode options second alternate node buffer := by
  intro node first second agrees buffer
  cases node with
  | root children | blockquote children | callout _ children =>
      simp only [writeNode, handled?_of_bare bare, ite_self,
        writeBlocks_agrees bare _ _ children (agrees.enter _)]
  | listItem _ _ children =>
      simp only [writeNode, handled?_of_bare bare, ite_self,
        writeBlocks_agrees bare _ _ children ((agrees.enter _).enter _)]
  | heading _ children | paragraph children | tableCell children | emphasis children
  | strong children | delete children | link _ _ children =>
      simp only [writeNode, handled?_of_bare bare, ite_self,
        writeInlines_agrees bare children (agrees.enter _)]
  | list ordered start spread children =>
      simp only [writeNode, handled?_of_bare bare, ite_self]
      refine writeItems_agrees bare ordered alternate spread [] _ children ?_ buffer
      split
      · exact agrees
      · exact agrees.enter _
  | table _ children =>
      simp only [writeNode, handled?_of_bare bare, ite_self,
        rowTexts_agrees bare children (agrees.enter _)]
  | tableRow children =>
      simp only [writeNode, handled?_of_bare bare, ite_self,
        cellTexts_agrees bare children (agrees.enter _)]
  | thematicBreak | code _ _ _ | html _ | yaml _ =>
      simp only [writeNode, handled?_of_bare bare, ite_self]
  | text _ | inlineCode _ | lineBreak | image _ _ _ =>
      simp only [writeNode, handled?_of_bare bare, ite_self, agrees.tableCell,
        agrees.isSingleLine, agrees.breakText]

theorem writeInlines_agrees {options : Options} (bare : options.handlers = []) :
    ∀ (nodes : List Node) {first second : Scope}, first.Agrees second → ∀ buffer : Buffer,
      writeInlines options first nodes buffer = writeInlines options second nodes buffer
  | [], _, _, _, _ => rfl
  | node :: rest, _, _, agrees, buffer => by
      rw [writeInlines, writeInlines, writeNode_agrees bare false node agrees,
        writeInlines_agrees bare rest agrees]

theorem writeBlocks_agrees {options : Options} (bare : options.handlers = []) (tight : Bool) :
    ∀ (previous : Option Node) (nodes : List Node) {first second : Scope},
      first.Agrees second → ∀ buffer : Buffer,
      writeBlocks options first tight previous nodes buffer =
        writeBlocks options second tight previous nodes buffer
  | _, [], _, _, _, _ => rfl
  | previous, node :: rest, _, _, agrees, buffer => by
      rw [writeBlocks, writeBlocks, writeNode_agrees bare _ node agrees,
        writeBlocks_agrees bare tight (some node) rest agrees]

theorem writeItems_agrees {options : Options} (bare : options.handlers = [])
    (ordered alternate spread : Bool) :
    ∀ (before : List Char) (number : UInt32) (nodes : List Node) {first second : Scope},
      first.Agrees second → ∀ buffer : Buffer,
      writeItems options first ordered alternate spread before number nodes buffer =
        writeItems options second ordered alternate spread before number nodes buffer
  | _, _, [], _, _, _, _ => by simp only [writeItems]
  | before, number, node :: rest, _, _, agrees, buffer => by
      cases node with
      | listItem itemSpread checked children =>
          simp only [writeItems, writeBlocks_agrees bare _ none children (agrees.enter _)]
          exact writeItems_agrees bare ordered alternate spread _ _ rest agrees _
      | _ =>
          simp only [writeItems]
          exact writeItems_agrees bare ordered alternate spread _ _ rest agrees _

theorem rowTexts_agrees {options : Options} (bare : options.handlers = []) :
    ∀ (nodes : List Node) {first second : Scope}, first.Agrees second →
      rowTexts options first nodes = rowTexts options second nodes
  | [], _, _, _ => rfl
  | node :: rest, _, _, agrees => by
      cases node with
      | tableRow cells =>
          simp only [rowTexts, cellTexts_agrees bare cells (agrees.enter _)]
          rw [rowTexts_agrees bare rest agrees]
      | _ =>
          simp only [rowTexts]
          exact rowTexts_agrees bare rest agrees

theorem cellTexts_agrees {options : Options} (bare : options.handlers = []) :
    ∀ (nodes : List Node) {first second : Scope}, first.Agrees second →
      cellTexts options first nodes = cellTexts options second nodes
  | [], _, _, _ => rfl
  | node :: rest, _, _, agrees => by
      rw [cellTexts, cellTexts, writeNode_agrees bare false node agrees,
        cellTexts_agrees bare rest agrees]
end

end EditorMarkdown.Writer
