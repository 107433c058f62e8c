import EditorMarkdown.Proofs.Markdown.Parts
import EditorMarkdown.Proofs.Text.Bars
import EditorMarkdown.Proofs.Writer.Decoding
import EditorMarkdown.Proofs.Writer.Growth

/-!
What is written in the cells of a table. A cell is a piece of a line, so a newline ends its row and
a bar ends the cell, unless a backslash stands right before the bar. Text and code are written so
that they fit. The destinations and titles of links and images are written as they are, and an
alternative text keeps its newlines, so it depends on these whether the cell still holds them.
-/

namespace EditorMarkdown.Writer

open Markdown (Kind Node)
open Text (bareBars endsBehind bareBars_append bareBars_cons bareBars_cons_of_ne bareBars_le
  bareBars_of_not_mem bareBars_flatMap splitLines)

structure FitsCell (text : List Char) : Prop where
  single : '\n' ∉ text
  barless : bareBars false text = 0

instance (text : List Char) : Decidable (FitsCell text) :=
  decidable_of_iff ('\n' ∉ text ∧ bareBars false text = 0)
    ⟨fun both => ⟨both.1, both.2⟩, fun fits => ⟨fits.single, fits.barless⟩⟩

variable {text more piece : List Char} {c : Char}

theorem FitsCell.append (fits : FitsCell text) (fitsMore : FitsCell more) :
    FitsCell (text ++ more) where
  single := by simp [fits.single, fitsMore.single]
  barless := by
    have few := bareBars_le (endsBehind false text) more
    rw [bareBars_append, fits.barless, Nat.zero_add]
    rw [fitsMore.barless] at few
    omega

theorem FitsCell.of_append (fits : FitsCell (text ++ more)) : FitsCell text where
  single member := fits.single (List.mem_append_left more member)
  barless := by
    have none := fits.barless
    rw [bareBars_append] at none
    omega

theorem fitsCell_append_iff (fitsMore : FitsCell more) :
    FitsCell (text ++ more) ↔ FitsCell text :=
  ⟨FitsCell.of_append, fun fits => fits.append fitsMore⟩

theorem fitsCell_push_iff (fits : FitsCell piece) (buffer : Buffer) :
    FitsCell (buffer.push piece).text ↔ FitsCell buffer.text := by
  rw [Buffer.text_push]
  exact fitsCell_append_iff fits

theorem fitsCell_of_plain (single : '\n' ∉ text) (barless : '|' ∉ text) : FitsCell text :=
  ⟨single, bareBars_of_not_mem false barless⟩

theorem fitsCell_replicate (count : Nat) (newline : c ≠ '\n') (bar : c ≠ '|') :
    FitsCell (List.replicate count c) := by
  apply fitsCell_of_plain
  · exact fun member => newline (List.eq_of_mem_replicate member).symm
  · exact fun member => bar (List.eq_of_mem_replicate member).symm

/-! Text and code. -/

theorem bareBars_escapeMarkup (behind : Bool) (text : List Char) :
    bareBars behind (escapeMarkup true text) = 0 := by
  induction text generalizing behind with
  | nil => rfl
  | cons c rest induction =>
      by_cases bar : c = '|'
      · subst bar
        simp [escapeMarkup, bareBars_cons, induction]
      · rcases escapeMarkup_cons true c rest with ⟨escaped, -⟩ | ⟨bare, -⟩
        · rw [escaped, bareBars_cons_of_ne (by decide), bareBars_cons_of_ne bar, induction]
        · rw [bare, bareBars_cons_of_ne bar, induction]

theorem bareBars_escapeOrderedMarker (line : List Char) :
    bareBars false (escapeOrderedMarker line) = bareBars false line := by
  rcases escapeOrderedMarker_eq line with same | ⟨digits, d, rest, -, isEnd, rfl, changed⟩
  · rw [same]
  · have apart : d ≠ '|' := by rcases isEnd with rfl | rfl <;> decide
    rw [changed, bareBars_append, bareBars_append, bareBars_cons_of_ne (by decide),
      bareBars_cons_of_ne apart, bareBars_cons_of_ne apart]

theorem not_mem_encodeBlanks (blanks : List Char) : '|' ∉ encodeBlanks blanks := by
  intro member
  obtain ⟨b, -, inReference⟩ := List.mem_flatMap.1 member
  rw [encodeBlank_eq] at inReference
  split at inReference <;> simp at inReference

theorem bareBars_escapeText (atLineStart : Bool) (text : List Char) :
    bareBars false (escapeText atLineStart true text) = 0 := by
  unfold escapeText
  dsimp only
  split
  · split
    · rw [escapeLineStart, bareBars_escapeOrderedMarker]
      split
      · rw [bareBars_cons_of_ne (by decide), bareBars_escapeMarkup]
      · rw [bareBars_escapeMarkup]
    · rw [bareBars_append, bareBars_of_not_mem _ (not_mem_encodeBlanks _), bareBars_escapeMarkup]
  · rw [bareBars_escapeMarkup]

theorem fitsCell_escapeText (atLineStart : Bool) (single : '\n' ∉ text) :
    FitsCell (escapeText atLineStart true text) :=
  ⟨(spells_escapeText atLineStart true text).single single, bareBars_escapeText atLineStart text⟩

theorem fitsCell_pushLines_iff {lines : List (List Char)} (single : ∀ line ∈ lines, '\n' ∉ line)
    (buffer : Buffer) :
    FitsCell (buffer.pushLines true true lines).text ↔ FitsCell buffer.text := by
  have push : ∀ line, '\n' ∉ line → ∀ buffer : Buffer,
      FitsCell (buffer.pushLine true false line).text ↔ FitsCell buffer.text := by
    intro line single buffer
    exact fitsCell_push_iff (fitsCell_escapeText _ single) buffer
  induction lines generalizing buffer with
  | nil => rfl
  | cons line lines induction =>
      have first := push line (single line List.mem_cons_self)
      cases lines with
      | nil => exact first buffer
      | cons next lines =>
          have others := induction fun line member => single line (List.mem_cons_of_mem _ member)
          rw [Buffer.pushLines]
          exact (others _).trans ((fitsCell_push_iff (by decide) _).trans (first buffer))

theorem bareBars_codeLine (value : String) : bareBars false (codeLine true value) = 0 := by
  have each : ∀ (line : List Char) (behind : Bool),
      bareBars behind (line.flatMap fun c => if c = '|' then ['\\', c] else [c]) = 0 := by
    intro line
    induction line with
    | nil => exact fun _ => rfl
    | cons c line induction =>
        intro behind
        rw [List.flatMap_cons, bareBars_append, induction]
        split
        · next bar => simp [bar, bareBars_cons]
        · next other => rw [bareBars_cons_of_ne other, Text.bareBars_nil]
  exact each _ false

theorem single_codeLine (value : String) : '\n' ∉ codeLine true value := by
  intro member
  obtain ⟨c, inLine, inPiece⟩ := List.mem_flatMap.1 member
  obtain ⟨d, -, rfl⟩ := List.mem_map.1 inLine
  by_cases newline : d = '\n'
  · simp [newline] at inPiece
  · rw [if_neg newline] at inPiece
    split at inPiece <;> simp [Ne.symm newline] at inPiece

theorem fitsCell_codeSpan (value : String) : FitsCell (codeSpan true value) := by
  have line : FitsCell (codeLine true value) := ⟨single_codeLine value, bareBars_codeLine value⟩
  have fence : FitsCell (List.replicate (longestBacktickRun (codeLine true value) + 1) '\x60') :=
    fitsCell_replicate _ (by decide) (by decide)
  have padding : FitsCell (if isPadded (codeLine true value) then [' '] else []) := by
    split <;> decide
  exact (((fence.append padding).append line).append padding).append fence

/-! Destinations and titles. -/

theorem bareBars_escapeReferences (behind : Bool) (text : List Char) :
    bareBars behind (escapeReferences text) = bareBars behind text := by
  induction text generalizing behind with
  | nil => rfl
  | cons c rest induction =>
      rw [escapeReferences]
      split
      · next reference =>
          obtain ⟨rfl, -⟩ : c = '&' ∧ _ := by simpa using reference
          rw [bareBars_cons_of_ne (by decide), bareBars_cons_of_ne (by decide),
            bareBars_cons_of_ne (by decide), induction]
      · rw [bareBars_cons, bareBars_cons, induction]

theorem fitsCell_escapeReferences_iff : FitsCell (escapeReferences text) ↔ FitsCell text := by
  constructor
  · intro fits
    refine ⟨fun member => fits.single ((mem_escapeReferences (by decide)).2 member), ?_⟩
    rw [← bareBars_escapeReferences]
    exact fits.barless
  · intro fits
    refine ⟨fun member => fits.single ((mem_escapeReferences (by decide)).1 member), ?_⟩
    rw [bareBars_escapeReferences]
    exact fits.barless

/-- A text fits if it does when each of its characters is written otherwise, but for newlines, bars
and backslashes. -/
theorem fitsCell_flatMap_iff (spell : Char → List Char) (text : List Char)
    (newline : ∀ c, '\n' ∈ spell c ↔ c = '\n')
    (bars : ∀ behind c, bareBars behind (spell c) = bareBars behind [c])
    (ends : ∀ behind c, endsBehind behind (spell c) = decide (c = '\\')) :
    FitsCell (text.flatMap spell) ↔ FitsCell text := by
  have lines : '\n' ∈ text.flatMap spell ↔ '\n' ∈ text := by simp [newline]
  have count := bareBars_flatMap bars ends false text
  constructor
  · exact fun fits => ⟨mt lines.2 fits.single, count.symm.trans fits.barless⟩
  · exact fun fits => ⟨mt lines.1 fits.single, count.trans fits.barless⟩

theorem fitsCell_enclosed_iff {before : List Char} (fits : FitsCell before)
    (solid : endsBehind false before = false) (fitsMore : FitsCell more) :
    FitsCell (before ++ text ++ more) ↔ FitsCell text := by
  rw [fitsCell_append_iff fitsMore]
  constructor
  · intro both
    refine ⟨fun member => both.single (List.mem_append_right before member), ?_⟩
    have none := both.barless
    rwa [bareBars_append, solid, fits.barless, Nat.zero_add] at none
  · exact fits.append

theorem fitsCell_destination_iff (url : String) :
    FitsCell (destination url) ↔ FitsCell url.toList := by
  unfold destination
  dsimp only
  split
  · have inside := fitsCell_flatMap_iff
      (fun c => if c = '<' then ['%', '3', 'C'] else if c = '>' then ['%', '3', 'E'] else [c])
      (escapeReferences url.toList) (fun c => by grind) (fun behind c => by grind [bareBars])
      (fun behind c => by grind [endsBehind])
    have opening : FitsCell ['<'] := by decide
    have closing : FitsCell ['>'] := by decide
    exact (fitsCell_enclosed_iff opening rfl closing).trans
      (inside.trans fitsCell_escapeReferences_iff)
  · exact fitsCell_escapeReferences_iff

theorem fitsCell_title_iff (linkTitle : Option String) :
    FitsCell (title linkTitle) ↔ ∀ text ∈ linkTitle, FitsCell text.toList := by
  cases linkTitle with
  | none => exact iff_of_true (by decide) (by simp)
  | some text =>
      have inside := fitsCell_flatMap_iff
        (fun c => if c = '\\' || c = '"' then ['\\', c] else [c]) text.toList
        (fun c => by grind) (fun behind c => by grind [bareBars])
        (fun behind c => by grind [endsBehind])
      have opening : FitsCell [' ', '"'] := by decide
      have closing : FitsCell ['"'] := by decide
      have whole := (fitsCell_enclosed_iff opening rfl closing).trans
        (fitsCell_escapeReferences_iff.trans inside)
      exact Iff.trans whole (by simp)

theorem fitsCell_append_cons_iff (other : c ≠ '|') :
    FitsCell (text ++ c :: more) ↔ FitsCell text ∧ FitsCell (c :: more) := by
  constructor
  · intro both
    refine ⟨both.of_append, fun member => both.single (List.mem_append_right text member), ?_⟩
    have none := both.barless
    rw [bareBars_append, Nat.add_eq_zero_iff, bareBars_cons_of_ne other] at none
    rw [bareBars_cons_of_ne other]
    exact none.2
  · exact fun both => both.1.append both.2

theorem fitsCell_linkTail_iff (url : String) (linkTitle : Option String) :
    FitsCell (linkTail url linkTitle) ↔
      FitsCell url.toList ∧ ∀ text ∈ linkTitle, FitsCell text.toList := by
  have opening : FitsCell [']', '('] := by decide
  have closing : FitsCell [')'] := by decide
  have whole : linkTail url linkTitle =
      [']', '('] ++ (destination url ++ title linkTitle) ++ [')'] :=
    by simp [linkTail]
  rw [whole, fitsCell_enclosed_iff opening rfl closing, ← fitsCell_destination_iff,
    ← fitsCell_title_iff]
  cases linkTitle with
  | none =>
      have nothing : FitsCell (title none) := by decide
      exact (fitsCell_append_iff nothing).trans (and_iff_left nothing).symm
  | some text => exact fitsCell_append_cons_iff (by decide)

theorem mem_of_spells {written : List Char} (spells : Spells text written)
    (solid : Text.isBlank c = false) (member : c ∈ text) : c ∈ written := by
  induction spells with
  | nil => exact member
  | bare plain alone rest induction => grind
  | escaped punctuation rest induction => grind
  | encoded blank rest induction => grind

theorem fitsCell_imageText_iff (url : String) (imageTitle : Option String) (alt : String) :
    FitsCell (imageText true url imageTitle alt) ↔
      '\n' ∉ alt.toList ∧ FitsCell url.toList ∧ ∀ text ∈ imageTitle, FitsCell text.toList := by
  have opening : FitsCell ['!', '['] := by decide
  have spells := spells_escapeText false true alt.toList
  have line : FitsCell (escapeText false true alt.toList) ↔ '\n' ∉ alt.toList :=
    ⟨fun fits member => fits.single (mem_of_spells spells rfl member), fitsCell_escapeText false⟩
  have whole : imageText true url imageTitle alt =
      ['!', '['] ++ (escapeText false true alt.toList ++ linkTail url imageTitle) ++ [] := by
    simp [imageText]
  rw [whole, fitsCell_enclosed_iff opening rfl (by decide), ← fitsCell_linkTail_iff, ← line]
  exact fitsCell_append_cons_iff (by decide)

/-! Inline content. -/

/-- Whether the strings of a link or an image that are written as they are fit a cell. -/
def ResourceFits : Node → Prop
  | .link url title _ => FitsCell url.toList ∧ ∀ text ∈ title, FitsCell text.toList
  | .image url title alt =>
      '\n' ∉ alt.toList ∧ FitsCell url.toList ∧ ∀ text ∈ title, FitsCell text.toList
  | _ => True

instance : DecidablePred ResourceFits
  | .link _ _ _ => inferInstanceAs (Decidable (_ ∧ _))
  | .image _ _ _ => inferInstanceAs (Decidable (_ ∧ _ ∧ _))
  | .root _ | .heading _ _ | .paragraph _ | .thematicBreak | .blockquote _ | .callout _ _
  | .list _ _ _ _ | .listItem _ _ _ | .code _ _ _ | .table _ _ | .tableRow _ | .tableCell _
  | .html _ | .yaml _ | .text _ | .emphasis _ | .strong _ | .delete _ | .inlineCode _
  | .lineBreak => .isTrue trivial

/-- Options under which only breaks have a handler, and neither what it writes in a cell nor the
markers of emphasis end the cell. -/
structure Options.KeepCells (options : Options) : Prop where
  plain : ∀ kind, kind ≠ .lineBreak → options.handler? kind = none
  breaks : ∀ (scope : Scope) (text : List Char), scope.within .tableCell →
    options.handled? scope .lineBreak = some text → FitsCell text
  emphasis : FitsCell [options.emphasis]
  strong : FitsCell [options.strong, options.strong]

theorem keepCells_standard : Options.standard.KeepCells where
  plain _ _ := rfl
  breaks _ _ _ handled := by cases handled
  emphasis := by decide
  strong := by decide

theorem keepCells_forDocuments : Options.forDocuments.KeepCells where
  plain kind other := Options.handler?_withHandler_of_ne .standard Options.cellBreak other.symm
  breaks scope text inCell handled := by
    have tag : Options.forDocuments.handled? scope .lineBreak = some "<br>".toList := by
      simp [Options.handled?, Options.forDocuments, Node.kind, Options.cellBreak, inCell]
    rw [Option.some.inj (handled.symm.trans tag)]
    decide
  emphasis := by decide
  strong := by decide

variable {options : Options}

theorem fitsCell_escapeBang_iff (buffer : Buffer) :
    FitsCell buffer.escapeBang.text ↔ FitsCell buffer.text := by
  unfold Buffer.escapeBang
  split
  · next ends =>
      obtain ⟨before, whole⟩ := List.getLast?_eq_some_iff.1 (getLast?_of_endsUnescaped ends)
      have bare : FitsCell (before ++ ['!']) ↔ FitsCell before := fitsCell_append_iff (by decide)
      have escaped : FitsCell (before ++ ['\\', '!']) ↔ FitsCell before :=
        fitsCell_append_iff (by decide)
      rw [Buffer.text_push, whole, bare, List.dropLast_concat]
      exact escaped
  · rfl

theorem fitsCell_pushCode_iff {code : List Char} (fits : FitsCell code) (buffer : Buffer) :
    FitsCell (buffer.pushCode code).text ↔ FitsCell buffer.text := by
  have space : FitsCell (if buffer.text.getLast? = some '\x60' then [' '] else []) := by
    split <;> decide
  exact (fitsCell_push_iff fits _).trans (fitsCell_push_iff space buffer)

theorem fitsCell_writeInlines_iff {scope : Scope} {nodes : List Node} {fits : Node → Prop}
    (each : ∀ node ∈ nodes, ∀ buffer : Buffer,
      FitsCell (writeNode options scope false node buffer).text ↔
        FitsCell buffer.text ∧ fits node) (buffer : Buffer) :
    FitsCell (writeInlines options scope nodes buffer).text ↔
      FitsCell buffer.text ∧ ∀ node ∈ nodes, fits node := by
  induction nodes generalizing buffer with
  | nil => simp [writeInlines]
  | cons node rest induction =>
      have others := induction fun node member => each node (List.mem_cons_of_mem _ member)
      rw [writeInlines, others, each node List.mem_cons_self, List.forall_mem_cons, and_assoc]

theorem fitsCell_writeNode_iff (keeps : options.KeepCells) (node : Node)
    (inline : ∀ part ∈ node.parts, part.isInline) {scope : Scope} (inCell : scope.within .tableCell)
    (buffer : Buffer) :
    FitsCell (writeNode options scope false node buffer).text ↔
      FitsCell buffer.text ∧ ∀ part ∈ node.parts, ResourceFits part := by
  induction node using Node.children_induction generalizing scope buffer with
  | step node induction =>
      rw [Node.forall_mem_parts] at inline ⊢
      obtain ⟨self, below⟩ := inline
      have inside : ∀ (kind : Kind) (buffer : Buffer),
          FitsCell (writeInlines options (scope.enter kind) node.children buffer).text ↔
            FitsCell buffer.text ∧ ∀ child ∈ node.children, ∀ part ∈ child.parts,
              ResourceFits part := by
        intro kind
        have entered : (scope.enter kind).within .tableCell := by simp [inCell]
        exact fitsCell_writeInlines_iff fun child member buffer =>
          induction child member (below child member) entered buffer
      have marked : ∀ (kind : Kind) {marker : List Char}, FitsCell marker →
          (FitsCell ((writeInlines options (scope.enter kind) node.children
              (buffer.push marker)).push marker).text ↔
            FitsCell buffer.text ∧ ∀ child ∈ node.children, ∀ part ∈ child.parts,
              ResourceFits part) := by
        intro kind marker fits
        rw [fitsCell_push_iff fits, inside, fitsCell_push_iff fits]
      have plain : node.kind ≠ .lineBreak →
          (if false then none else options.handled? scope node) = none :=
        handled?_eq_none keeps.plain node scope false
      cases node with
      | text value =>
          have lines : ∀ line ∈ splitLines value.toList, '\n' ∉ line :=
            fun _ => Text.not_mem_of_mem_splitLines
          have singleLine : scope.isSingleLine := by simp [Scope.isSingleLine, inCell]
          simp only [writeNode, plain (by rintro ⟨⟩), inCell, singleLine]
          rw [fitsCell_pushLines_iff lines]
          simp [ResourceFits, Node.children]
      | inlineCode value =>
          simp only [writeNode, plain (by rintro ⟨⟩), inCell]
          rw [fitsCell_pushCode_iff (fitsCell_codeSpan value)]
          simp [ResourceFits, Node.children]
      | lineBreak =>
          cases handled : (if false then none else options.handled? scope .lineBreak) with
          | some text =>
              rw [writeNode_of_handled handled,
                fitsCell_push_iff (keeps.breaks scope text inCell handled)]
              simp [ResourceFits, Node.children]
          | none =>
              have space : scope.breakText = [' '] := by
                simp [Scope.breakText, Scope.isSingleLine, inCell]
              simp only [writeNode, handled, space]
              rw [fitsCell_push_iff (by decide)]
              simp [ResourceFits, Node.children]
      | emphasis children =>
          simp only [writeNode, plain (by rintro ⟨⟩)]
          exact (marked .emphasis keeps.emphasis).trans (by simp [ResourceFits])
      | strong children =>
          simp only [writeNode, plain (by rintro ⟨⟩)]
          exact (marked .strong keeps.strong).trans (by simp [ResourceFits])
      | delete children =>
          have marker : FitsCell ['~', '~'] := by decide
          simp only [writeNode, plain (by rintro ⟨⟩)]
          exact (marked .delete marker).trans (by simp [ResourceFits])
      | link url title children =>
          have bracket : FitsCell ['['] := by decide
          simp only [writeNode, plain (by rintro ⟨⟩)]
          rw [Buffer.text_push, linkTail, List.cons_append, List.cons_append,
            fitsCell_append_cons_iff (by decide)]
          refine (and_congr (inside .link _) (fitsCell_linkTail_iff url title)).trans ?_
          rw [fitsCell_push_iff bracket, fitsCell_escapeBang_iff]
          exact and_assoc.trans (and_congr_right fun _ => and_comm)
      | image url title alt =>
          simp only [writeNode, plain (by rintro ⟨⟩), inCell]
          rw [Buffer.text_push, imageText, List.cons_append, List.cons_append,
            fitsCell_append_cons_iff (by decide)]
          refine and_congr_right fun _ => (fitsCell_imageText_iff url title alt).trans ?_
          simp [ResourceFits, Node.children]
      | _ => cases self

end EditorMarkdown.Writer
