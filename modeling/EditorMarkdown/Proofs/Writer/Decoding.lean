import EditorMarkdown.Proofs.Text.Lines
import EditorMarkdown.Proofs.Writer.Composition
import EditorMarkdown.Proofs.Writer.Spelling

/-!
A paragraph of text reads as the text that was written. Reading drops the blanks at the ends of each
line and then undoes escapes and encoded blanks from the left. Nothing in the written text is taken
for markup: what could open a construct is escaped, and the only references are encoded blanks.
-/

namespace EditorMarkdown.Writer

open Markdown (Node)
open Text (isBlank isAsciiPunctuation splitLines joinLines trimWhile)

variable {text written other otherWritten line : List Char} {lines : List (List Char)} {c : Char}

/-! Reading a spelling. -/

/-- A line with its escapes and its encoded blanks undone, from the left. -/
def decode : List Char → List Char
  | '\\' :: c :: rest =>
      if isAsciiPunctuation c then c :: decode rest else '\\' :: decode (c :: rest)
  | '&' :: '#' :: 'x' :: '2' :: '0' :: ';' :: rest => ' ' :: decode rest
  | '&' :: '#' :: 'x' :: '9' :: ';' :: rest => '\t' :: decode rest
  | c :: rest => c :: decode rest
  | [] => []

/-- What the lines of a text are read as, blanks at their ends aside. -/
def decodeLines (text : List Char) : List Char :=
  joinLines ((splitLines text).map fun line => decode (trimWhile isBlank line))

theorem decode_bare (plain : isMarkup c = false) (alone : c = '&' → startsReference other = false) :
    decode (c :: other) = c :: decode other := by
  rw [decode]
  · rintro d rest rfl
    cases plain
  · rintro rest rfl rfl
    cases alone rfl
  · rintro rest rfl rfl
    cases alone rfl

theorem decode_escaped (punctuation : isAsciiPunctuation c) (rest : List Char) :
    decode ('\\' :: c :: rest) = c :: decode rest := by
  rw [decode, if_pos punctuation]

theorem decode_encoded (blank : isBlank c) (rest : List Char) :
    decode (encodeBlank c ++ rest) = c :: decode rest := by
  rcases isBlank_iff.1 blank with rfl | rfl <;> rfl

theorem Spells.decode_eq (spells : Spells text written) : decode written = text := by
  induction spells with
  | nil => rfl
  | bare plain alone rest induction => rw [decode_bare plain alone, induction]
  | escaped punctuation rest induction => rw [decode_escaped punctuation, induction]
  | encoded blank rest induction => rw [decode_encoded blank, induction]

/-! What is left unescaped. -/

/-- Whether what stands behind a text is escaped by it: it ends with an odd number of
backslashes. -/
def escapesNext (text : List Char) : Bool := (text.reverse.takeWhile (· = '\\')).length % 2 = 1

@[simp] theorem escapesNext_concat (text : List Char) (c : Char) :
    escapesNext (text ++ [c]) = (decide (c = '\\') && !escapesNext text) := by
  by_cases backslash : c = '\\'
  · simp only [escapesNext, List.reverse_append, List.reverse_singleton, List.singleton_append,
      backslash, List.takeWhile_cons_of_pos, decide_true, List.length_cons, Bool.true_and]
    grind
  · simp [escapesNext, backslash]

/-- Wherever a written text stands without being escaped, each of its characters is escaped, or
escapes the next one, or is no markup; and what starts a reference is an encoded blank. -/
def IsSettled (written : List Char) : Prop :=
  ∀ (lead before : List Char) (c : Char) (after : List Char), escapesNext lead = false →
    written = before ++ c :: after →
      escapesNext (lead ++ before) ∨ c = '\\' ∨
        isMarkup c = false ∧ (c = '&' → startsReference after →
          ∃ blank rest, isBlank blank ∧ c :: after = encodeBlank blank ++ rest)

namespace IsSettled

theorem nil : IsSettled [] := by
  intro lead before c after _ whole
  simp at whole

theorem cons (plain : isMarkup c = false)
    (reference : c = '&' → startsReference written →
      ∃ blank rest, isBlank blank ∧ c :: written = encodeBlank blank ++ rest)
    (settled : IsSettled written) : IsSettled (c :: written) := by
  intro lead before d after unescaped whole
  cases before with
  | nil =>
      obtain ⟨rfl, rfl⟩ := List.cons.inj whole
      exact .inr (.inr ⟨plain, reference⟩)
  | cons b before =>
      obtain ⟨rfl, rfl⟩ := List.cons.inj whole
      have apart : c ≠ '\\' := by
        rintro rfl
        cases plain
      have solid : escapesNext (lead ++ [c]) = false := by simp [apart]
      simpa using settled _ _ _ _ solid rfl

theorem escaped (c : Char) (settled : IsSettled written) :
    IsSettled ('\\' :: c :: written) := by
  intro lead before d after unescaped whole
  match before with
  | [] => exact .inr (.inl (List.cons.inj whole).1.symm)
  | [b] =>
      obtain ⟨rfl, -⟩ := List.cons.inj whole
      exact .inl (by simp [unescaped])
  | b :: e :: before =>
      cases whole
      have done : escapesNext (lead ++ ['\\'] ++ [c]) = false := by
        rw [escapesNext_concat, escapesNext_concat]
        simp [unescaped]
      simpa using settled _ _ _ _ done rfl

theorem append_solid {solid : List Char} (all : ∀ c ∈ solid, isMarkup c = false ∧ c ≠ '&')
    (settled : IsSettled written) : IsSettled (solid ++ written) := by
  induction solid with
  | nil => exact settled
  | cons c solid induction =>
      obtain ⟨plain, apart⟩ := all c List.mem_cons_self
      have others := induction fun c member => all c (List.mem_cons_of_mem _ member)
      exact cons plain (fun ampersand => absurd ampersand apart) others

end IsSettled

theorem Spells.isSettled (spells : Spells text written) : IsSettled written := by
  induction spells with
  | nil => exact .nil
  | bare plain alone rest induction =>
      refine .cons plain (fun ampersand starts => ?_) induction
      simp [alone ampersand] at starts
  | escaped punctuation rest induction => exact .escaped _ induction
  | @encoded blank text written isBlank rest induction =>
      have reference := encodeBlank_eq blank
      rw [reference]
      refine .cons rfl (fun _ _ => ⟨blank, written, isBlank, by rw [reference]; rfl⟩) ?_
      refine .append_solid ?_ induction
      split <;> simp [isMarkup]

theorem IsSettled.reference_eq (settled : IsSettled written) {before body after : List Char}
    (whole : written = before ++ '&' :: (body ++ ';' :: after)) (filled : body ≠ [])
    (all : ∀ c ∈ body, isReferenceChar c) (unescaped : escapesNext before = false) :
    ['&'] ++ body ++ [';'] ∈ [encodeBlank ' ', encodeBlank '\t'] := by
  have stops : ∀ c ∈ (';' :: after).head?, isReferenceChar c = false := by
    rintro c ⟨⟩
    rfl
  obtain ⟨within, behind⟩ := Text.span_append all stops
  have starts : startsReference (body ++ ';' :: after) := by
    rw [startsReference, within, behind]
    simpa using filled
  rcases settled [] before '&' _ rfl whole with escaped | backslash | ⟨-, encoded⟩
  · simp [unescaped] at escaped
  · cases backslash
  · obtain ⟨blank, rest, isBlank, same⟩ := encoded rfl starts
    rcases isBlank_iff.1 isBlank with rfl | rfl
    · rw [(List.cons.inj same).2] at within
      rw [← within]
      exact List.mem_cons_self
    · rw [(List.cons.inj same).2] at within
      rw [← within]
      exact List.mem_cons_of_mem _ List.mem_cons_self

/-! The lines of a text. -/

/-- The lines of a text as they are written at the start of a line: blanks are encoded at the start
of each, and at the end of each but the last. -/
def spellLines (inCell : Bool) : List (List Char) → List (List Char)
  | [] => []
  | [line] => [escapeText true inCell line]
  | line :: next :: lines =>
      encodeTrailingBlanks (escapeText true inCell line) :: spellLines inCell (next :: lines)

theorem spellLines_ne_nil (inCell : Bool) (filled : lines ≠ []) : spellLines inCell lines ≠ [] := by
  match lines with
  | [] => contradiction
  | [line] => simp [spellLines]
  | line :: next :: lines => simp [spellLines]

theorem text_pushLines (inCell : Bool) : ∀ (lines : List (List Char)) (text : List Char),
    (Buffer.pushLines inCell false lines ⟨text, true⟩).text =
      text ++ joinLines (spellLines inCell lines)
  | [], text => by simp [Buffer.pushLines, spellLines]
  | [line], text => by simp [Buffer.pushLines, Buffer.pushLine, spellLines]
  | line :: next :: lines, text => by
      have opened : ∀ buffer : Buffer, buffer.push ['\n'] = ⟨buffer.text ++ ['\n'], true⟩ := by
        intro buffer
        simp [Buffer.push]
      have filled : spellLines inCell (next :: lines) ≠ [] := spellLines_ne_nil inCell (by simp)
      rw [Buffer.pushLines, spellLines, Text.joinLines_cons _ filled]
      simp only [Bool.false_eq_true, if_false, opened]
      rw [text_pushLines inCell (next :: lines)]
      simp [Buffer.pushLine]

theorem Spells.append_newline (spells : Spells text written)
    (following : Spells other otherWritten) :
    Spells (text ++ '\n' :: other) (written ++ '\n' :: otherWritten) := by
  induction spells with
  | nil => exact .bare rfl (fun ampersand => by cases ampersand) following
  | bare plain alone rest induction =>
      refine .bare plain (fun ampersand => ?_) induction
      have stops := startsReference_append_cons (c := '\n') (by decide) (by decide)
      exact (stops _ _).trans (alone ampersand)
  | escaped punctuation rest induction => exact .escaped punctuation induction
  | encoded blank rest induction =>
      rw [List.append_assoc]
      exact .encoded blank induction

theorem Spells.not_mem (spells : Spells text written)
    (unspelled : c ∉ ['\\', '&', '#', 'x', '2', '0', '9', ';']) (absent : c ∉ text) :
    c ∉ written := by
  induction spells with
  | nil => exact absent
  | bare plain alone rest induction => simp_all
  | escaped punctuation rest induction => simp_all
  | @encoded blank text written isBlank rest induction =>
      have apart : c ∉ encodeBlank blank := by
        rw [encodeBlank_eq]
        split <;> simp_all
      simp_all

theorem Spells.single (spells : Spells text written) (single : '\n' ∉ text) : '\n' ∉ written :=
  spells.not_mem (by decide) single

theorem spells_spellLines (inCell : Bool) : ∀ lines : List (List Char),
    Spells (joinLines lines) (joinLines (spellLines inCell lines))
  | [] => .nil
  | [line] => spells_escapeText true inCell line
  | line :: next :: lines => by
      have first := (spells_escapeText true inCell line).encodeTrailingBlanks
      rw [spellLines, Text.joinLines_cons line (by simp),
        Text.joinLines_cons _ (spellLines_ne_nil inCell (by simp))]
      exact first.append_newline (spells_spellLines inCell (next :: lines))

theorem single_of_mem_spellLines {inCell : Bool} : ∀ {lines : List (List Char)},
    (∀ line ∈ lines, '\n' ∉ line) → ∀ line ∈ spellLines inCell lines, '\n' ∉ line
  | [], _, _, member => absurd member List.not_mem_nil
  | [line], single, _, member => by
      rw [List.mem_singleton.1 member]
      exact (spells_escapeText true inCell line).single (single line (by simp))
  | line :: next :: lines, single, other, member => by
      rcases List.mem_cons.1 member with rfl | behind
      · have first := (spells_escapeText true inCell line).encodeTrailingBlanks
        exact first.single (single line (by simp))
      · exact single_of_mem_spellLines
          (fun line member => single line (List.mem_cons_of_mem _ member)) other behind

theorem Spells.decode_trimWhile (spells : Spells text written)
    (starts : ∀ c ∈ written.head?, isBlank c = false)
    (ends : ∀ c ∈ written.getLast?, isBlank c = false) :
    decode (trimWhile isBlank written) = text := by
  rw [Text.trimWhile_of_ends starts ends, spells.decode_eq]

theorem map_decode_spellLines (inCell : Bool) : ∀ {lines : List (List Char)},
    (∀ last ∈ lines.getLast?, ∀ c ∈ last.getLast?, isBlank c = false) →
      (spellLines inCell lines).map (fun line => decode (trimWhile isBlank line)) = lines
  | [], _ => rfl
  | [line], solid => by
      have spells := spells_escapeText true inCell line
      have ends := spells.getLast?_solid (solid line rfl)
      rw [spellLines, List.map_singleton,
        spells.decode_trimWhile (head?_escapeText_solid inCell line) ends]
  | line :: next :: lines, solid => by
      have spells := (spells_escapeText true inCell line).encodeTrailingBlanks
      have starts := head?_encodeTrailingBlanks_solid (head?_escapeText_solid inCell line)
      have solidRest : ∀ last ∈ (next :: lines).getLast?, ∀ c ∈ last.getLast?,
          isBlank c = false := by simpa using solid
      rw [spellLines, List.map_cons,
        spells.decode_trimWhile starts (getLast?_encodeTrailingBlanks_solid _),
        map_decode_spellLines inCell solidRest]

theorem blocksText_paragraph_text {options : Options} (bare : options.handlers = [])
    (value : String) :
    blocksText options [.paragraph [.text value]] =
      joinLines (spellLines false (splitLines value.toList)) := by
  rw [blocksText_singleton]
  simp only [writeNode, writeInlines, handled?_of_bare bare, ite_self]
  exact text_pushLines false (splitLines value.toList) []

theorem getLast?_joinLines {last : List Char} (isLast : lines.getLast? = some last)
    (ends : last.getLast? = some c) : (joinLines lines).getLast? = some c := by
  induction lines with
  | nil => cases isLast
  | cons line lines induction =>
      cases lines with
      | nil =>
          cases isLast
          exact ends
      | cons next lines =>
          have others := induction (by simpa using isLast)
          rw [Text.joinLines_cons line (by simp), List.getLast?_append, List.getLast?_cons, others]
          rfl

theorem toText_of_getLast? {children : List Node}
    (ends : (blocksText .standard children).getLast? = some c) (apart : c ≠ '\n') :
    (Markdown.toText .standard children).toList = blocksText .standard children ++ ['\n'] := by
  have filled : blocksText .standard children ≠ [] := by
    intro empty
    simp [empty] at ends
  have unfinished : (blocksText .standard children).getLast? ≠ some '\n' := by simpa [ends]
  rw [Markdown.toText, String.toList_ofList, rootText_eq rfl]
  exact (finishLine_eq _).trans (if_pos ⟨filled, unfinished⟩)

/-- A written text is read as a text, and nothing in it is taken for markup. -/
structure ReadsAs (text written : List Char) : Prop where
  decodes : decodeLines written = text
  escaped : ∀ (before : List Char) (c : Char) (after : List Char), written = before ++ c :: after →
    c ∈ ['*', '_', '\x60', '[', ']', '<', '~'] → escapesNext before
  references : ∀ before body after : List Char, written = before ++ '&' :: (body ++ ';' :: after) →
    body ≠ [] → (∀ c ∈ body, isReferenceChar c) → escapesNext before = false →
      ['&'] ++ body ++ [';'] ∈ [encodeBlank ' ', encodeBlank '\t']

/-- A paragraph of text is read as the text, if the text does not end in a blank or a newline. -/
theorem toText_paragraph_readsAs {value : String} {last : List Char} {c : Char}
    (isLast : (splitLines value.toList).getLast? = some last) (ends : last.getLast? = some c)
    (solid : isBlank c = false) :
    ∃ written, ReadsAs value.toList written ∧
      (Markdown.toText .standard [.paragraph [.text value]]).toList = written ++ ['\n'] := by
  have spells := spells_spellLines false (splitLines value.toList)
  rw [Text.joinLines_splitLines] at spells
  have bare : Options.standard.handlers = [] := rfl
  have written := blocksText_paragraph_text bare value
  refine ⟨joinLines (spellLines false (splitLines value.toList)), ⟨?_, ?_, ?_⟩, ?_⟩
  · have single : ∀ line ∈ spellLines false (splitLines value.toList), '\n' ∉ line :=
      single_of_mem_spellLines fun _ => Text.not_mem_of_mem_splitLines
    have filled := spellLines_ne_nil false (Text.splitLines_ne_nil value.toList)
    rw [decodeLines, Text.splitLines_joinLines filled single, map_decode_spellLines,
      Text.joinLines_splitLines]
    intro line member d found
    cases isLast.symm.trans member
    cases ends.symm.trans found
    exact solid
  · intro before d after whole member
    have markup : ∀ c ∈ ['*', '_', '\x60', '[', ']', '<', '~'], isMarkup c ∧ c ≠ '\\' := by
      simp [isMarkup]
    obtain ⟨isMarkup, apart⟩ := markup d member
    rcases spells.isSettled [] before d after rfl whole with escaped | backslash | ⟨plain, -⟩
    · exact escaped
    · exact absurd backslash apart
    · simp [isMarkup] at plain
  · intro before body after whole filled all unescaped
    exact spells.isSettled.reference_eq whole filled all unescaped
  · have apart : c ≠ '\n' := by
      rintro rfl
      exact Text.not_mem_of_mem_splitLines (List.mem_of_getLast? isLast) (List.mem_of_getLast? ends)
    have valueEnds : value.toList.getLast? = some c := by
      rw [← Text.joinLines_splitLines value.toList]
      exact getLast?_joinLines isLast ends
    rw [← written]
    rcases spells.getLast?_eq with same | semicolon
    · exact toText_of_getLast? (by rw [written, same, valueEnds]) apart
    · exact toText_of_getLast? (by rw [written, semicolon]) (by decide)

theorem toText_paragraph_readsAs_lines :
    (splitLines "\t1. a& \n1. \\*&lt;\n---".toList).getLast? = some ['-', '-', '-'] ∧
      ['-', '-', '-'].getLast? = some '-' ∧ isBlank '-' = false ∧
      ∃ written, ReadsAs "\t1. a& \n1. \\*&lt;\n---".toList written ∧
        (Markdown.toText .standard [.paragraph [.text "\t1. a& \n1. \\*&lt;\n---"]]).toList =
          written ++ ['\n'] := by
  have isLast : (splitLines "\t1. a& \n1. \\*&lt;\n---".toList).getLast? =
      some ['-', '-', '-'] := by decide
  exact ⟨isLast, rfl, rfl, toText_paragraph_readsAs isLast rfl rfl⟩

end EditorMarkdown.Writer
