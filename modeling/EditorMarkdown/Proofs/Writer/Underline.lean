import EditorMarkdown.Proofs.Writer.Decoding
import EditorMarkdown.Proofs.Writer.Growth
import EditorMarkdown.Proofs.Writer.LineStart

/-!
First lines that are no underline. Below a line of text, a line of dashes or equals signs makes a
heading of it. Markup at the start of a line and the escapes of text keep the line from that, and
once it has begun as something else, nothing that is written behind it changes this.
-/

namespace EditorMarkdown.Writer

open Markdown (Node)
open Text (isBlank splitLines)

variable {line text more tail written : List Char}

/-! Lines. -/

def firstLine (text : List Char) : List Char := text.takeWhile (· ≠ '\n')

theorem firstLine_append_of_not_mem (single : '\n' ∉ line) (more : List Char) :
    firstLine (line ++ more) = line ++ firstLine more := by
  refine List.takeWhile_append_of_pos fun c member => ?_
  simpa using ne_of_mem_of_not_mem member single

theorem firstLine_of_not_mem (single : '\n' ∉ line) : firstLine line = line := by
  simpa [firstLine] using firstLine_append_of_not_mem single []

theorem firstLine_append_of_mem (ended : '\n' ∈ text) (more : List Char) :
    firstLine (text ++ more) = firstLine text := by
  have shorter : (text.takeWhile (· ≠ '\n')).length ≠ text.length := by
    intro whole
    have all := List.takeWhile_eq_self_iff.1 ((List.takeWhile_prefix _).eq_of_length whole)
    simpa using all '\n' ended
  rw [firstLine, List.takeWhile_append, if_neg shorter]
  rfl

theorem firstLine_append_of_head? (ends : ∀ c ∈ tail.head?, c = '\n') (text : List Char) :
    firstLine (text ++ tail) = firstLine text := by
  by_cases ended : '\n' ∈ text
  · exact firstLine_append_of_mem ended tail
  · have nothing : firstLine tail = [] := by
      cases tail with
      | nil => rfl
      | cons c tail => simp [firstLine, ends c rfl]
    rw [firstLine_append_of_not_mem ended, firstLine_of_not_mem ended, nothing, List.append_nil]

theorem IsUnderline.head (underline : IsUnderline line) : ∀ c ∈ line.head?, c = '=' ∨ c = '-' := by
  obtain ⟨c, n, blanks, isRun, -, rfl⟩ := underline
  simpa [List.replicate_succ] using isRun

theorem IsUnderline.mem {c : Char} (underline : IsUnderline line) (member : c ∈ line) :
    c = '=' ∨ c = '-' ∨ isBlank c := by
  obtain ⟨d, n, blanks, isRun, blank, rfl⟩ := underline
  rcases List.mem_append.1 member with inRun | inBlanks
  · rw [List.eq_of_mem_replicate inRun, ← or_assoc]
    exact .inl isRun
  · exact .inr (.inr (blank c inBlanks))

theorem IsUnderline.of_append (filled : line ≠ []) (underline : IsUnderline (line ++ more)) :
    IsUnderline line := by
  obtain ⟨c, n, blanks, isRun, blank, whole⟩ := underline
  -- the line ends within the run or behind it
  rcases List.append_eq_append_iff.1 whole with ⟨rest, run, -⟩ | ⟨rest, rfl, behind⟩
  · obtain ⟨-, all⟩ := List.eq_replicate_iff.1 run.symm
    obtain ⟨m, length⟩ : ∃ m, line.length = m + 1 :=
      Nat.exists_eq_succ_of_ne_zero (List.length_eq_zero_iff.not.2 filled)
    refine ⟨c, m, [], isRun, by simp, ?_⟩
    rw [List.append_nil, List.eq_replicate_iff]
    exact ⟨length, fun d member => all d (List.mem_append_left _ member)⟩
  · refine ⟨c, n, rest, isRun, fun b member => blank b ?_, rfl⟩
    rw [behind]
    exact List.mem_append_left _ member

theorem not_isUnderline_nil : ¬IsUnderline [] := by
  rintro ⟨c, n, blanks, -, -, whole⟩
  simp at whole

/-- A text whose first line has begun, and not as an underline. Nothing that is written behind it
makes one of the line. -/
structure HasBegun (text : List Char) : Prop where
  filled : text ≠ []
  clear : ¬IsUnderline (firstLine text)

namespace HasBegun

theorem of_head {c : Char} (first : text.head? = some c) (other : ¬(c = '=' ∨ c = '-')) :
    HasBegun text where
  filled := by
    rintro rfl
    cases first
  clear underline := by
    cases text with
    | nil => cases first
    | cons d text =>
        cases first
        by_cases newline : c = '\n'
        · simp [firstLine, newline, not_isUnderline_nil] at underline
        · exact other (underline.head c (by simp [firstLine, newline]))

theorem append (begun : HasBegun text) (more : List Char) : HasBegun (text ++ more) where
  filled := List.append_ne_nil_of_left_ne_nil begun.filled more
  clear underline := by
    refine begun.clear ?_
    by_cases ended : '\n' ∈ text
    · rwa [firstLine_append_of_mem ended] at underline
    · rw [firstLine_append_of_not_mem ended] at underline
      rw [firstLine_of_not_mem ended]
      exact underline.of_append begun.filled

theorem grows (begun : HasBegun text) (grows : Grows text written) : HasBegun written := by
  rcases grows with ⟨more, rfl⟩ | ⟨before, rfl, more, rfl⟩
  · exact begun.append more
  · -- a backslash is part of no underline, so the line may be compared where it replaces the mark
    refine HasBegun.append ⟨by simp, fun underline => ?_⟩ more
    by_cases ended : '\n' ∈ before
    · rw [firstLine_append_of_mem ended] at underline
      exact begun.clear (by rwa [firstLine_append_of_mem ended])
    · rw [firstLine_append_of_not_mem ended] at underline
      have backslash : '\\' ∈ before ++ firstLine ['\\'] := by simp [firstLine]
      exact absurd (underline.mem backslash) (by decide)

end HasBegun

/-! What is written at the start of a line. -/

def Begins (buffer : Buffer) : Prop := buffer = .empty ∨ HasBegun buffer.text

theorem Begins.not_isUnderline {buffer : Buffer} (begins : Begins buffer) :
    ¬IsUnderline (firstLine buffer.text) := by
  rcases begins with rfl | begun
  · exact not_isUnderline_nil
  · exact begun.clear

theorem begins_push {piece : List Char} (harmless : ∀ c ∈ piece.head?, ¬(c = '=' ∨ c = '-')) :
    Begins (Buffer.empty.push piece) := by
  cases piece with
  | nil => exact .inl rfl
  | cons c piece => exact .inr (.of_head (by simp [Buffer.empty]) (harmless c rfl))

theorem not_isUnderline_encodeTrailingBlanks (clear : ¬IsUnderline line) :
    ¬IsUnderline (encodeTrailingBlanks line) := by
  obtain ⟨body, blanks, rfl, -, -, encoded⟩ := encodeTrailingBlanks_eq line
  rw [encoded]
  intro underline
  cases blanks with
  | nil => exact clear (by simpa [encodeBlanks] using underline)
  | cons c blanks =>
      have ampersand : '&' ∈ encodeBlanks (c :: blanks) := by simp [encodeBlanks, encodeBlank_eq]
      exact absurd (underline.mem (List.mem_append_right body ampersand)) (by decide)

theorem not_isUnderline_escapeText (inCell : Bool) (text : List Char) :
    ¬IsUnderline (escapeText true inCell text) := by
  intro underline
  rcases escapeText_cases inCell text with
    inert | ⟨c, rest, rfl, plain, unindented, harmless, written⟩
  · obtain ⟨c, n, blanks, isRun, -, whole⟩ := underline
    rcases inert c (by simp [whole, List.replicate_succ]) with rfl | rfl <;>
      exact absurd isRun (by decide)
  · rw [written] at underline
    exact not_opensBlock_of_harmless plain harmless unindented (.underline underline)

theorem begins_pushLine (inCell encodeEnd : Bool) (single : '\n' ∉ line) :
    Begins (Buffer.empty.pushLine inCell encodeEnd line) := by
  have spells := spells_escapeText true inCell line
  have clear : ¬IsUnderline (escapeText true inCell line) :=
    not_isUnderline_escapeText inCell line
  have begins : ∀ piece, '\n' ∉ piece → ¬IsUnderline piece →
      Begins (Buffer.empty.push piece) := by
    intro piece single clear
    by_cases empty : piece = []
    · exact .inl (by rw [empty]; rfl)
    · refine .inr ⟨by simp [empty], ?_⟩
      simpa [Buffer.empty, firstLine_of_not_mem single] using clear
  unfold Buffer.pushLine
  split
  · exact begins _ (spells.encodeTrailingBlanks.single single)
      (not_isUnderline_encodeTrailingBlanks clear)
  · exact begins _ (spells.single single) clear

theorem Begins.hasBegun_push {buffer : Buffer} (begins : Begins buffer) {c : Char}
    (other : ¬(c = '=' ∨ c = '-')) : HasBegun (buffer.push [c]).text := by
  rcases begins with rfl | begun
  · exact .of_head (by simp [Buffer.empty]) other
  · exact begun.grows (grows_push [c] buffer)

theorem begins_pushLines (inCell singleLine : Bool) {lines : List (List Char)}
    (single : ∀ line ∈ lines, '\n' ∉ line) :
    Begins (Buffer.empty.pushLines inCell singleLine lines) := by
  cases lines with
  | nil => exact .inl rfl
  | cons line lines =>
      have first := fun encodeEnd =>
        begins_pushLine inCell encodeEnd (single line List.mem_cons_self)
      cases lines with
      | nil => exact first false
      | cons next lines =>
          have other : ¬((if singleLine then ' ' else '\n') = '=' ∨
              (if singleLine then ' ' else '\n') = '-') := by cases singleLine <;> decide
          have parted := (first !singleLine).hasBegun_push other
          exact .inr (parted.grows (grows_pushLines inCell singleLine (next :: lines) _))

/-! Nodes that are written without a handler. -/

def nodeText (scope : Scope) (node : Node) : List Char :=
  (writeNode .standard scope false node .empty).text

theorem head?_joinLines {c : Char} (first : line.head? = some c) (lines : List (List Char)) :
    (Text.joinLines (line :: lines)).head? = some c := by
  cases lines with
  | nil => exact first
  | cons next lines =>
      rw [Text.joinLines_cons line (List.cons_ne_nil _ _), List.head?_append, first, Option.some_or]

theorem head?_quoteText (body : List Char) : (quoteText body).head? = some '>' := by
  cases lines : splitLines body with
  | nil => exact absurd lines (Text.splitLines_ne_nil body)
  | cons line others =>
      rw [quoteText, Text.prefixLines, lines, List.map_cons]
      exact head?_joinLines (by split <;> rfl) _

theorem head?_codeSpan (inCell : Bool) (value : String) :
    (codeSpan inCell value).head? = some '\x60' := by
  simp [codeSpan, List.replicate_succ]

theorem head?_codeBlock (lang detail : Option String) (value : String) :
    (codeBlock lang detail value).head? = some '\x60' := by
  obtain ⟨n, length⟩ : ∃ n, max 3 (longestBacktickRun value.toList + 1) = n + 1 :=
    Nat.exists_eq_add_of_le' (by omega)
  simp [codeBlock, codeFence, length, List.replicate_succ]

theorem head?_tableText {align : List (Option Markdown.Align)} {rows : List (List (List Char))}
    (filled : rows ≠ []) : (tableText align rows).head? = some '|' := by
  obtain ⟨head, rest, rfl⟩ := List.exists_cons_of_ne_nil filled
  exact head?_joinLines rfl _

/-- Whether markup, or the escapes of a text, stand at the start of what a node is written as. -/
def isGuarded (node : Node) : Bool :=
  node.isInline ||
    node.kind ∈ [.heading, .blockquote, .callout, .code, .table, .tableRow]

theorem begins_writeNode (scope : Scope) {node : Node} (guarded : isGuarded node) :
    Begins (writeNode .standard scope false node .empty) := by
  have bare : ∀ node, Options.standard.handled? scope node = none := fun _ => rfl
  have marked : ∀ {piece : List Char} {c : Char}, piece.head? = some c → ¬(c = '=' ∨ c = '-') →
      Begins (Buffer.empty.push piece) := by
    intro piece c first other
    refine begins_push fun d member => ?_
    rwa [Option.some.inj (member.symm.trans first)]
  cases node with
  | text value =>
      simp only [writeNode, bare, ite_self]
      exact begins_pushLines _ _ fun _ => Text.not_mem_of_mem_splitLines
  | heading depth children =>
      simp only [writeNode, bare, ite_self]
      refine .inr (HasBegun.grows ?_ (.inl (prefix_heading _ _ depth children .empty)))
      obtain ⟨n, deep⟩ : ∃ n, headingDepth depth = n + 1 :=
        Nat.exists_eq_add_of_le' (by unfold headingDepth; omega)
      have first : (List.replicate (headingDepth depth) '#' ++ [' ']).head? = some '#' := by
        rw [deep]
        rfl
      exact .of_head (by simpa [Buffer.startLine, Buffer.empty] using first) (by decide)
  | emphasis children | strong children | delete children =>
      simp only [writeNode, bare, ite_self]
      refine .inr (HasBegun.grows ?_ ((grows_writeInlines _ _ children _).push _))
      exact .of_head rfl (by decide)
  | link url title children =>
      simp only [writeNode, bare, ite_self]
      refine .inr (HasBegun.grows ?_ ((grows_writeInlines _ _ children _).push _))
      exact .of_head rfl (by decide)
  | blockquote children | callout kind children =>
      simp only [writeNode, bare, ite_self]
      exact marked (head?_quoteText _) (by decide)
  | code lang detail value =>
      simp only [writeNode, bare, ite_self]
      exact marked (head?_codeBlock lang detail value) (by decide)
  | inlineCode value =>
      simp only [writeNode, bare, ite_self]
      exact marked (head?_codeSpan _ value) (by decide)
  | table align children =>
      simp only [writeNode, bare, ite_self]
      by_cases empty : rowTexts .standard (scope.enter .table) children = []
      · exact .inl (by rw [empty]; rfl)
      · exact marked (head?_tableText empty) (by decide)
  | tableRow children =>
      simp only [writeNode, bare, ite_self]
      exact marked rfl (by decide)
  | lineBreak =>
      simp only [writeNode, bare, ite_self]
      refine begins_push ?_
      unfold Scope.breakText
      split <;> simp
  | image url title alt =>
      simp only [writeNode, bare, ite_self]
      exact marked rfl (by decide)
  | _ => cases guarded

theorem begins_writeInlines (scope : Scope) {nodes : List Node}
    (inline : ∀ node ∈ nodes, node.isInline) :
    Begins (writeInlines .standard scope nodes .empty) := by
  induction nodes with
  | nil => exact .inl rfl
  | cons node rest induction =>
      rw [writeInlines]
      have guarded : isGuarded node := by simp [isGuarded, inline node List.mem_cons_self]
      rcases begins_writeNode scope guarded with empty | begun
      · rw [empty]
        exact induction fun node member => inline node (List.mem_cons_of_mem _ member)
      · exact .inr (begun.grows (grows_writeInlines _ scope rest _))

end EditorMarkdown.Writer
