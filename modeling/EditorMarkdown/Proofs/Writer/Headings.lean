import EditorMarkdown.Proofs.Markdown.Values
import EditorMarkdown.Proofs.Writer.Decoding
import EditorMarkdown.Proofs.Writer.Place

/-!
Headings outside of tables. A heading is one line: wherever a value has a newline, and for each
break, a space is written. And it keeps its number signs: a run of them at its end that readers
would take for the end of the heading has a backslash before it.
-/

namespace EditorMarkdown.Writer

open Markdown (Kind Node)
open Text (isBlank trimEndWhile splitLines)

variable {text more body hashes content : List Char} {first second third buffer : Buffer}
  {options : Options} {scope : Scope} {node : Node} {children : List Node}

/-! Lines. -/

structure IsOneLine (text : List Char) : Prop where
  single : '\n' ∉ text
  returnless : '\r' ∉ text

instance (text : List Char) : Decidable (IsOneLine text) :=
  decidable_of_iff ('\n' ∉ text ∧ '\r' ∉ text)
    ⟨fun both => ⟨both.1, both.2⟩, fun line => ⟨line.single, line.returnless⟩⟩

theorem IsOneLine.append (line : IsOneLine text) (lineMore : IsOneLine more) :
    IsOneLine (text ++ more) where
  single := by simp [line.single, lineMore.single]
  returnless := by simp [line.returnless, lineMore.returnless]

theorem IsOneLine.of_subset (line : IsOneLine text) (subset : more ⊆ text) : IsOneLine more where
  single member := line.single (subset member)
  returnless member := line.returnless (subset member)

theorem isOneLine_replicate (count : Nat) {c : Char} (line : IsOneLine [c]) :
    IsOneLine (List.replicate count c) :=
  line.of_subset fun _ member => List.mem_singleton.2 (List.eq_of_mem_replicate member)

theorem isOneLine_escapeText (atLineStart inCell : Bool) (line : IsOneLine text) :
    IsOneLine (escapeText atLineStart inCell text) where
  single := (spells_escapeText atLineStart inCell text).not_mem (by decide) line.single
  returnless := (spells_escapeText atLineStart inCell text).not_mem (by decide) line.returnless

theorem isOneLine_of_mem_splitLines (returnless : '\r' ∉ text) :
    ∀ line ∈ splitLines text, IsOneLine line := fun _ member =>
  { single := Text.not_mem_of_mem_splitLines member
    returnless := fun inLine =>
      returnless ((Text.infix_of_mem_splitLines member).subset inLine) }

theorem isOneLine_codeLine {value : String} (returnless : '\r' ∉ value.toList) :
    IsOneLine (codeLine false value) where
  single := by
    intro member
    obtain ⟨c, -, newline⟩ := List.mem_map.1 member
    split at newline
    · cases newline
    · contradiction
  returnless := by
    intro member
    obtain ⟨c, inValue, carriageReturn⟩ := List.mem_map.1 member
    split at carriageReturn
    · cases carriageReturn
    · exact returnless (carriageReturn ▸ inValue)

theorem isOneLine_codeSpan {value : String} (returnless : '\r' ∉ value.toList) :
    IsOneLine (codeSpan false value) := by
  have fence := isOneLine_replicate (longestBacktickRun (codeLine false value) + 1)
    (c := '\x60') (by decide)
  have padding : IsOneLine (if isPadded (codeLine false value) then [' '] else []) := by
    split <;> decide
  exact (((fence.append padding).append (isOneLine_codeLine returnless)).append padding).append
    fence

/-! Writing on the same line. -/

def Continues (first second : Buffer) : Prop :=
  ∃ line, IsOneLine line ∧ second.text = first.text ++ line

theorem Continues.refl (buffer : Buffer) : Continues buffer buffer :=
  ⟨[], by decide, (List.append_nil _).symm⟩

theorem Continues.trans (one : Continues first second) (two : Continues second third) :
    Continues first third := by
  obtain ⟨line, isLine, written⟩ := one
  obtain ⟨rest, isRest, writtenRest⟩ := two
  exact ⟨line ++ rest, isLine.append isRest, by rw [writtenRest, written, List.append_assoc]⟩

theorem continues_push (line : IsOneLine text) (buffer : Buffer) :
    Continues buffer (buffer.push text) :=
  ⟨text, line, Buffer.text_push text buffer⟩

theorem continues_pushCode (line : IsOneLine text) (buffer : Buffer) :
    Continues buffer (buffer.pushCode text) := by
  have space : IsOneLine (if buffer.text.getLast? = some '\x60' then [' '] else []) := by
    split <;> decide
  exact (continues_push space buffer).trans (continues_push line _)

theorem continues_pushLines (inCell : Bool) {lines : List (List Char)}
    (each : ∀ line ∈ lines, IsOneLine line) (buffer : Buffer) :
    Continues buffer (buffer.pushLines inCell true lines) := by
  induction lines generalizing buffer with
  | nil => exact .refl buffer
  | cons line lines induction =>
      obtain ⟨isLine, others⟩ := List.forall_mem_cons.1 each
      have pushed : Continues buffer (buffer.pushLine inCell false line) :=
        continues_push (isOneLine_escapeText _ inCell isLine) buffer
      cases lines with
      | nil => exact pushed
      | cons next lines =>
          rw [Buffer.pushLines]
          exact (pushed.trans (continues_push (by decide) _)).trans (induction others _)

theorem continues_writeInlines (each : ∀ node ∈ children, ∀ buffer : Buffer,
      Continues buffer (writeNode options scope false node buffer)) (buffer : Buffer) :
    Continues buffer (writeInlines options scope children buffer) := by
  induction children generalizing buffer with
  | nil => exact .refl buffer
  | cons node rest induction =>
      obtain ⟨head, others⟩ := List.forall_mem_cons.1 each
      exact (head buffer).trans (induction others _)

/-! Nodes in a heading. -/

def lineKinds : List Kind := [.text, .emphasis, .strong, .delete, .inlineCode, .lineBreak]

structure IsLinePart (part : Node) : Prop where
  kind : part.kind ∈ lineKinds
  returnless : '\r' ∉ part.value

instance : DecidablePred IsLinePart := fun part =>
  decidable_of_iff (part.kind ∈ lineKinds ∧ '\r' ∉ part.value)
    ⟨fun both => ⟨both.1, both.2⟩, fun isPart => ⟨isPart.kind, isPart.returnless⟩⟩

/-- Options under which only breaks have a handler, and only in the cells of tables, and markers of
emphasis do not end lines. -/
structure Options.KeepLines (options : Options) : Prop where
  plain : ∀ kind, kind ≠ .lineBreak → options.handler? kind = none
  breaks : ∀ scope : Scope, scope.within .tableCell = false →
    options.handled? scope .lineBreak = none
  emphasis : IsOneLine [options.emphasis]
  strong : IsOneLine [options.strong, options.strong]

theorem keepLines_standard (frontMatter : Option String) :
    { Options.standard with frontMatter }.KeepLines where
  plain _ _ := rfl
  breaks _ _ := rfl
  emphasis := (by decide : IsOneLine ['*'])
  strong := (by decide : IsOneLine ['*', '*'])

theorem keepLines_forDocuments (frontMatter : Option String) :
    { Options.forDocuments with frontMatter }.KeepLines where
  plain kind other := Options.handler?_withHandler_of_ne .standard Options.cellBreak other.symm
  breaks scope outside := by
    have left : Options.cellBreak .lineBreak scope = none := by simp [Options.cellBreak, outside]
    exact congrArg (Option.map String.toList) left
  emphasis := (by decide : IsOneLine ['*'])
  strong := (by decide : IsOneLine ['*', '*'])

theorem continues_writeNode (keeps : options.KeepLines) (node : Node)
    (parts : ∀ part ∈ node.parts, IsLinePart part) (inHeading : scope.within .heading)
    (outside : scope.within .tableCell = false) (buffer : Buffer) :
    Continues buffer (writeNode options scope false node buffer) := by
  induction node using Node.children_induction generalizing scope buffer with
  | step node induction =>
      obtain ⟨self, below⟩ := Node.forall_mem_parts.1 parts
      have marked : ∀ (kind : Kind) {marker : List Char}, kind ≠ .tableCell → IsOneLine marker →
          Continues buffer ((writeInlines options (scope.enter kind) node.children
            (buffer.push marker)).push marker) := by
        intro kind marker notCell line
        have stillInHeading : (scope.enter kind).within .heading := by simp [inHeading]
        have stillOutside : (scope.enter kind).within .tableCell = false := by
          simp [outside, notCell.symm]
        have inside := continues_writeInlines fun child member =>
          induction child member (below child member) stillInHeading stillOutside
        exact ((continues_push line buffer).trans (inside _)).trans (continues_push line _)
      have plain : node.kind ≠ .lineBreak →
          (if false then none else options.handled? scope node) = none :=
        handled?_eq_none keeps.plain node scope false
      have singleLine : scope.isSingleLine := by simp [Scope.isSingleLine, inHeading]
      cases node with
      | text value =>
          simp only [writeNode, plain (by rintro ⟨⟩), singleLine]
          exact continues_pushLines _ (isOneLine_of_mem_splitLines self.returnless) buffer
      | inlineCode value =>
          simp only [writeNode, plain (by rintro ⟨⟩), outside]
          exact continues_pushCode (isOneLine_codeSpan self.returnless) buffer
      | lineBreak =>
          have space : scope.breakText = [' '] := by simp [Scope.breakText, singleLine]
          simp only [writeNode, keeps.breaks scope outside, ite_self, space]
          exact continues_push (by decide) buffer
      | emphasis children =>
          simp only [writeNode, plain (by rintro ⟨⟩)]
          exact marked .emphasis (by decide) keeps.emphasis
      | strong children =>
          simp only [writeNode, plain (by rintro ⟨⟩)]
          exact marked .strong (by decide) keeps.strong
      | delete children =>
          simp only [writeNode, plain (by rintro ⟨⟩)]
          exact marked .delete (by decide) (by decide)
      | _ => exact absurd self.kind (by simp [lineKinds, Node.kind])

/-! Number signs at the end. -/

/-- What readers take for the content of a heading that is written with a content: blanks at the end
are left out, and so is a run of number signs there if it is all of it or stands behind a blank. -/
def withoutClosing (content : List Char) : List Char :=
  let line := trimEndWhile isBlank content
  let body := trimEndWhile (· = '#') line
  if body.getLast?.all isBlank then body else line

theorem withoutClosing_append (hash : ∀ c ∈ hashes, c = '#')
    (solid : ∃ c ∈ body.getLast?, isBlank c = false ∧ c ≠ '#')
    (ends : ∀ c ∈ (body ++ hashes).getLast?, isBlank c = false) :
    withoutClosing (body ++ hashes) = body ++ hashes := by
  obtain ⟨c, last, visible, other⟩ := solid
  have trimmed : trimEndWhile (· = '#') (body ++ hashes) = body := by
    refine Text.trimEndWhile_append_of_all (by simpa using hash) fun d found => ?_
    rw [Option.mem_unique found last]
    exact decide_eq_false other
  simp only [withoutClosing, Text.trimEndWhile_of_getLast? ends, trimmed]
  rw [Option.mem_def.1 last]
  simp [visible]

theorem escapeClosingHashes_cases (content : List Char) :
    ∃ body hashes, content = body ++ hashes ∧ (∀ c ∈ hashes, c = '#') ∧
      (∀ c ∈ body.getLast?, c ≠ '#') ∧
      (escapeClosingHashes content = body ++ '\\' :: hashes ∨
        escapeClosingHashes content = body ++ hashes ∧
          (hashes = [] ∨ ∃ c ∈ body.getLast?, isBlank c = false)) := by
  have hash : ∀ c ∈ (content.reverse.takeWhile (· = '#')).reverse, c = '#' := fun c member => by
    simpa using List.mem_takeWhile_imp (List.mem_reverse.1 member)
  have other : ∀ c ∈ (trimEndWhile (· = '#') content).getLast?, c ≠ '#' := fun c last => by
    simpa using Text.getLast?_trimEndWhile (· = '#') content c last
  have whole := Text.trimEndWhile_append (· = '#') content
  refine ⟨_, _, whole.symm, hash, other, ?_⟩
  unfold escapeClosingHashes
  dsimp only
  split
  · next none => exact .inr ⟨whole.symm, .inl (List.isEmpty_iff.1 none)⟩
  · split
    · next empty => exact .inl (by rw [List.getLast?_eq_none_iff.1 empty, List.nil_append])
    · next c last =>
        split
        · exact .inl rfl
        · next visible => exact .inr ⟨whole.symm, .inr ⟨c, last, by simpa using visible⟩⟩

theorem isOneLine_escapeClosingHashes (line : IsOneLine content) :
    IsOneLine (escapeClosingHashes content) := by
  obtain ⟨body, hashes, rfl, -, -, escaped | ⟨kept, -⟩⟩ := escapeClosingHashes_cases content
  · have backslash : IsOneLine ['\\'] := by decide
    rw [escaped]
    exact (backslash.append line).of_subset fun c member => by
      simpa [or_left_comm] using member
  · rwa [kept]

theorem withoutClosing_escapeClosingHashes
    (ends : ∀ c ∈ (escapeClosingHashes content).getLast?, isBlank c = false) :
    withoutClosing (escapeClosingHashes content) = escapeClosingHashes content := by
  obtain ⟨body, hashes, -, hash, other, escaped | ⟨kept, rfl | ⟨c, last, visible⟩⟩⟩ :=
    escapeClosingHashes_cases content
  · rw [escaped, List.append_cons] at ends ⊢
    exact withoutClosing_append hash ⟨'\\', by simp, by decide⟩ ends
  · rw [kept, List.append_nil] at ends ⊢
    have unclosed : trimEndWhile (· = '#') body = body :=
      Text.trimEndWhile_of_getLast? fun c last => decide_eq_false (other c last)
    rw [withoutClosing, Text.trimEndWhile_of_getLast? ends, unclosed, ite_self]
  · rw [kept] at ends ⊢
    exact withoutClosing_append hash ⟨c, last, visible, other c last⟩ ends

example : withoutClosing "a ##".toList = "a ".toList ∧
    withoutClosing "a \\##".toList = "a \\##".toList := by decide

/-! Headings. -/

theorem text_writeNode_heading (keeps : options.KeepLines) (scope : Scope) (alternate : Bool)
    (depth : UInt8) (children : List Node) (buffer : Buffer) :
    (writeNode options scope alternate (.heading depth children) buffer).text =
      buffer.text ++ (List.replicate (headingDepth depth) '#' ++ ' ' ::
        escapeClosingHashes
          (writeInlines options (scope.enter .heading) children (.fresh true)).text) := by
  have plain := handled?_eq_none keeps.plain (.heading depth children) scope alternate
    (by rintro ⟨⟩)
  simp only [writeNode, plain]
  rw [text_heading]
  simp [Buffer.startLine]

theorem isOneLine_writeInlines (keeps : options.KeepLines)
    (outside : scope.within .tableCell = false)
    (parts : ∀ part ∈ Node.partsOf children, IsLinePart part) :
    IsOneLine (writeInlines options (scope.enter .heading) children (.fresh true)).text := by
  have inHeading : (scope.enter .heading).within .heading := by simp
  have stillOutside : (scope.enter .heading).within .tableCell = false := by simp [outside]
  have inside := continues_writeInlines fun child member =>
    continues_writeNode keeps child
      (fun part inChild => parts part (Node.mem_partsOf.2 ⟨child, member, inChild⟩))
      inHeading stillOutside
  obtain ⟨content, line, written⟩ := inside (.fresh true)
  rwa [written]

/-- With the standard options and those for documents, a heading is written on one line, with what
its children are written as, but for a backslash, and is read with all of it. -/
theorem heading_isOneLine {frontMatter : Option String}
    (usual : options = { Options.standard with frontMatter } ∨
      options = { Options.forDocuments with frontMatter })
    (outside : scope.within .tableCell = false)
    (parts : ∀ part ∈ Node.partsOf children, IsLinePart part) (alternate : Bool) (depth : UInt8)
    (buffer : Buffer) :
    let content := escapeClosingHashes
      (writeInlines options (scope.enter .heading) children (.fresh true)).text
    (writeNode options scope alternate (.heading depth children) buffer).text =
        buffer.text ++ (List.replicate (min (max depth.toNat 1) 6) '#' ++ ' ' :: content) ∧
      IsOneLine content ∧
      ((∀ c ∈ content.getLast?, isBlank c = false) → withoutClosing content = content) := by
  have keeps : options.KeepLines := by
    rcases usual with rfl | rfl
    · exact keepLines_standard frontMatter
    · exact keepLines_forDocuments frontMatter
  exact ⟨text_writeNode_heading keeps scope alternate depth children buffer,
    isOneLine_escapeClosingHashes (isOneLine_writeInlines keeps outside parts),
    withoutClosing_escapeClosingHashes⟩

def brokenHeading : List Node :=
  [.emphasis [.text "a\nb", .lineBreak, .inlineCode "c\nd"], .text " ##"]

theorem heading_isOneLine_broken :
    (∀ part ∈ Node.partsOf brokenHeading, IsLinePart part) ∧
      (writeNode .forDocuments ⟨[.root]⟩ false (.heading 9 brokenHeading) .empty).text =
        "###### *a b `c d`* \\##".toList ∧
      IsOneLine "*a b `c d`* \\##".toList ∧
      withoutClosing "*a b `c d`* \\##".toList = "*a b `c d`* \\##".toList := by
  have parts : ∀ part ∈ Node.partsOf brokenHeading, IsLinePart part := by decide
  have content : escapeClosingHashes (writeInlines .forDocuments (Scope.enter .heading ⟨[.root]⟩)
      brokenHeading (.fresh true)).text = "*a b `c d`* \\##".toList := by decide
  obtain ⟨written, line, kept⟩ :=
    @heading_isOneLine .forDocuments ⟨[.root]⟩ brokenHeading none (.inr rfl) rfl parts false 9
      .empty
  rw [content] at written line kept
  have last : "*a b `c d`* \\##".toList.getLast? = some '#' := by decide
  refine ⟨parts, written, line, kept fun c isLast => ?_⟩
  rw [Option.mem_unique isLast last]
  decide

end EditorMarkdown.Writer
