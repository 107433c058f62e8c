import EditorMarkdown.Proofs.Text.Lines
import EditorMarkdown.Text.Punctuation
import EditorMarkdown.Writer.Escape
import Mathlib.Data.List.TakeWhile

/-!
How a text is spelled in markdown. Each character stands for itself, or behind a backslash, or as a
character reference if it is a blank. Whatever protects a text only chooses between these spellings,
and reading undoes each of them by itself.
-/

namespace EditorMarkdown.Writer

open Text (isBlank isAsciiPunctuation trimEndWhile)

variable {text written other otherWritten blanks line rest : List Char} {c : Char}

theorem isBlank_iff : isBlank c ↔ c = ' ' ∨ c = '\t' := by
  simp [isBlank]

theorem isBlank_of_isAsciiPunctuation (punctuation : isAsciiPunctuation c) :
    isBlank c = false := by
  refine eq_false_of_ne_true fun blank => ?_
  rcases isBlank_iff.1 blank with rfl | rfl <;> cases punctuation

/-! What is put behind backslashes. -/

def escapable : List Char := ['\\', '*', '_', '\x60', '[', ']', '<', '~', '&', '|']

theorem isAsciiPunctuation_of_mem_escapable (member : c ∈ escapable) : isAsciiPunctuation c :=
  List.all_eq_true.1 (by decide) c member

theorem mem_escapable_of_isMarkup (markup : isMarkup c) : c ∈ escapable := by
  simp only [isMarkup, Bool.or_eq_true, decide_eq_true_eq] at markup
  rcases markup with ((((((rfl | rfl) | rfl) | rfl) | rfl) | rfl) | rfl) | rfl <;> decide

theorem escapeMarkup_cons (inCell : Bool) (c : Char) (rest : List Char) :
    (escapeMarkup inCell (c :: rest) = '\\' :: c :: escapeMarkup inCell rest ∧ c ∈ escapable) ∨
      (escapeMarkup inCell (c :: rest) = c :: escapeMarkup inCell rest ∧ isMarkup c = false ∧
        (c = '&' → startsReference rest = false)) := by
  rw [escapeMarkup]
  split
  · next escaped =>
      left
      refine ⟨rfl, ?_⟩
      simp only [Bool.or_eq_true, Bool.and_eq_true, decide_eq_true_eq] at escaped
      rcases escaped with (markup | ⟨rfl, -⟩) | ⟨rfl, -⟩
      · exact mem_escapable_of_isMarkup markup
      · decide
      · decide
  · next bare =>
      right
      simp only [Bool.or_eq_true, Bool.and_eq_true, decide_eq_true_eq, not_or, not_and,
        Bool.not_eq_true] at bare
      exact ⟨rfl, bare.1.1, bare.1.2⟩

/-- Whether a class of characters holds none that stands behind a backslash somewhere. -/
def NeverEscaped (holds : Char → Bool) : Prop := ∀ c ∈ escapable, holds c = false

instance (holds : Char → Bool) : Decidable (NeverEscaped holds) :=
  decidable_of_iff (escapable.all fun c => !holds c) (by simp [NeverEscaped])

theorem NeverEscaped.not_mem {holds : Char → Bool} (never : NeverEscaped holds)
    (isIn : holds c) : c ∉ escapable := by
  intro member
  simp [never c member] at isIn

theorem neverEscaped_isDigit : NeverEscaped Char.isDigit := by decide

theorem neverEscaped_isBlank : NeverEscaped isBlank := by decide

section

variable {holds : Char → Bool} (never : NeverEscaped holds) (inCell : Bool)

include never

theorem escapeMarkup_cons_of_never (isIn : holds c) (rest : List Char) :
    escapeMarkup inCell (c :: rest) = c :: escapeMarkup inCell rest := by
  rcases escapeMarkup_cons inCell c rest with ⟨-, member⟩ | ⟨bare, -⟩
  · exact absurd member (never.not_mem isIn)
  · exact bare

theorem any_head?_escapeMarkup (text : List Char) :
    (escapeMarkup inCell text).head?.any holds = text.head?.any holds := by
  cases text with
  | nil => rfl
  | cons c rest =>
      rcases escapeMarkup_cons inCell c rest with ⟨escaped, member⟩ | ⟨bare, -⟩
      · simp [escaped, never c member, never '\\' (by decide)]
      · simp [bare]

theorem span_escapeMarkup (text : List Char) :
    (escapeMarkup inCell text).takeWhile holds = text.takeWhile holds ∧
      (escapeMarkup inCell text).dropWhile holds =
        escapeMarkup inCell (text.dropWhile holds) := by
  induction text with
  | nil => simp
  | cons c rest induction =>
      cases isIn : holds c with
      | true =>
          rw [escapeMarkup_cons_of_never never inCell isIn]
          simp [isIn, induction]
      | false =>
          rcases escapeMarkup_cons inCell c rest with ⟨escaped, -⟩ | ⟨bare, -⟩
          · simp [escaped, never '\\' (by decide), isIn]
          · simp [bare, isIn]

end

theorem head?_eq_some_iff_any (text : List Char) (c : Char) :
    text.head? = some c ↔ text.head?.any (· = c) := by
  cases text <;> simp

theorem encodeBlank_eq (c : Char) :
    encodeBlank c =
      '&' :: (if c = '\t' then ['#', 'x', '9', ';'] else ['#', 'x', '2', '0', ';']) := by
  unfold encodeBlank
  split <;> rfl

theorem getLast?_encodeBlank (c : Char) : (encodeBlank c).getLast? = some ';' := by
  unfold encodeBlank
  split <;> rfl

theorem startsReference_escapeMarkup (inCell : Bool) (rest : List Char) :
    startsReference (escapeMarkup inCell rest) = startsReference rest := by
  have references : NeverEscaped isReferenceChar := by decide
  have semicolon : NeverEscaped (· = ';') := by decide
  obtain ⟨body, behind⟩ := span_escapeMarkup references inCell rest
  simp only [startsReference, body, behind, head?_eq_some_iff_any,
    any_head?_escapeMarkup semicolon]

theorem startsReference_append_cons {c : Char} (outside : isReferenceChar c = false)
    (apart : c ≠ ';') (body tail : List Char) :
    startsReference (body ++ c :: tail) = startsReference body := by
  have within := Text.takeWhile_append_cons outside body tail
  have ends : (body ++ c :: tail).dropWhile isReferenceChar =
      body.dropWhile isReferenceChar ++ c :: tail := by
    rw [List.dropWhile_append]
    split
    · next none => simp [outside, List.isEmpty_iff.1 none]
    · rfl
  rw [startsReference, startsReference, within, ends]
  cases body.dropWhile isReferenceChar <;> simp [apart]

theorem startsReference_append_encodeBlanks (blank : ∀ c ∈ blanks, isBlank c)
    (body : List Char) :
    startsReference (body ++ encodeBlanks blanks) = startsReference (body ++ blanks) := by
  cases blanks with
  | nil => rfl
  | cons c blanks =>
      have first : ∀ d, isBlank d → isReferenceChar d = false ∧ d ≠ ';' := by
        intro d isBlank
        rcases isBlank_iff.1 isBlank with rfl | rfl <;> decide
      obtain ⟨outside, apart⟩ := first c (blank c List.mem_cons_self)
      rw [startsReference_append_cons outside apart, encodeBlanks, List.flatMap_cons,
        encodeBlank_eq, List.cons_append,
        startsReference_append_cons (by decide) (by decide)]

theorem mem_escapeReferences (apart : c ≠ '\\') : c ∈ escapeReferences text ↔ c ∈ text := by
  induction text with
  | nil => rfl
  | cons d rest induction =>
      rw [escapeReferences]
      split <;> simp [induction, apart]

/-! Spelling. -/

/-- A written text spells a text. A character that stands for itself is no markup and does not start
a character reference. -/
inductive Spells : List Char → List Char → Prop
  | nil : Spells [] []
  | bare {c : Char} {text written : List Char} (plain : isMarkup c = false)
      (alone : c = '&' → startsReference written = false) (rest : Spells text written) :
      Spells (c :: text) (c :: written)
  | escaped {c : Char} {text written : List Char} (punctuation : isAsciiPunctuation c)
      (rest : Spells text written) : Spells (c :: text) ('\\' :: c :: written)
  | encoded {c : Char} {text written : List Char} (blank : isBlank c)
      (rest : Spells text written) : Spells (c :: text) (encodeBlank c ++ written)

theorem spells_escapeMarkup (inCell : Bool) (text : List Char) :
    Spells text (escapeMarkup inCell text) := by
  induction text with
  | nil => exact .nil
  | cons c rest induction =>
      rcases escapeMarkup_cons inCell c rest with ⟨escaped, member⟩ | ⟨bare, plain, alone⟩
      · rw [escaped]
        exact .escaped (isAsciiPunctuation_of_mem_escapable member) induction
      · rw [bare]
        refine .bare plain ?_ induction
        rwa [startsReference_escapeMarkup]

namespace Spells

theorem encodeBlanks (blank : ∀ c ∈ blanks, isBlank c) (spells : Spells text written) :
    Spells (blanks ++ text) (Writer.encodeBlanks blanks ++ written) := by
  induction blanks with
  | nil => exact spells
  | cons c blanks induction =>
      have others := induction fun c member => blank c (List.mem_cons_of_mem _ member)
      simpa [Writer.encodeBlanks] using Spells.encoded (blank c List.mem_cons_self) others

theorem append_digits {digits : List Char} (all : ∀ c ∈ digits, c.isDigit)
    (spells : Spells text written) : Spells (digits ++ text) (digits ++ written) := by
  induction digits with
  | nil => exact spells
  | cons c digits induction =>
      have others := induction fun c member => all c (List.mem_cons_of_mem _ member)
      have apart := (neverEscaped_isDigit.not_mem (all c List.mem_cons_self))
      refine .bare ?_ ?_ others
      · exact eq_false_of_ne_true (mt mem_escapable_of_isMarkup apart)
      · rintro rfl
        exact absurd (by decide) apart

theorem of_cons (unescaped : c ≠ '\\') (unreferenced : c ≠ '&')
    (spells : Spells text (c :: written)) : ∃ rest, text = c :: rest ∧ Spells rest written := by
  generalize whole : c :: written = line at spells
  cases spells with
  | nil => cases whole
  | bare plain alone rest =>
      cases whole
      exact ⟨_, rfl, rest⟩
  | escaped punctuation rest => exact absurd (List.cons.inj whole).1 unescaped
  | encoded blank rest =>
      rw [encodeBlank_eq] at whole
      exact absurd (List.cons.inj whole).1 unreferenced

theorem of_append_digits {digits : List Char} (all : ∀ c ∈ digits, c.isDigit)
    (spells : Spells text (digits ++ written)) :
    ∃ rest, text = digits ++ rest ∧ Spells rest written := by
  induction digits generalizing text with
  | nil => exact ⟨text, rfl, spells⟩
  | cons c digits induction =>
      have others : ∀ c ∈ digits, c.isDigit := fun c member =>
        all c (List.mem_cons_of_mem _ member)
      have apart := neverEscaped_isDigit.not_mem (all c List.mem_cons_self)
      obtain ⟨rest, rfl, afterwards⟩ := spells.of_cons
        (ne_of_mem_of_not_mem (by decide) apart).symm (ne_of_mem_of_not_mem (by decide) apart).symm
      obtain ⟨behind, rfl, last⟩ := induction others afterwards
      exact ⟨behind, rfl, last⟩

theorem encode_end (blank : ∀ c ∈ blanks, isBlank c) (spells : Spells text (written ++ blanks)) :
    Spells text (written ++ Writer.encodeBlanks blanks) := by
  generalize whole : written ++ blanks = line at spells
  induction spells generalizing written blanks with
  | nil =>
      obtain ⟨rfl, rfl⟩ := List.append_eq_nil_iff.1 whole
      exact .nil
  | @bare c text line plain alone rest induction =>
      cases written with
      | nil =>
          rw [List.nil_append] at whole
          subst whole
          have others := induction (fun c member => blank c (List.mem_cons_of_mem _ member))
            (List.nil_append line)
          simpa [Writer.encodeBlanks] using Spells.encoded (blank c List.mem_cons_self) others
      | cons d written =>
          obtain ⟨rfl, rfl⟩ := List.cons.inj whole
          refine .bare plain (fun ampersand => ?_) (induction blank rfl)
          exact (startsReference_append_encodeBlanks blank written).trans (alone ampersand)
  | @escaped c text line punctuation rest induction =>
      match written with
      | [] =>
          rw [List.nil_append] at whole
          subst whole
          have backslash := blank '\\' List.mem_cons_self
          cases backslash
      | [d] =>
          obtain ⟨rfl, rfl⟩ := List.cons.inj whole
          have both := blank c List.mem_cons_self
          simp [isBlank_of_isAsciiPunctuation punctuation] at both
      | d :: e :: written =>
          cases whole
          exact .escaped punctuation (induction blank rfl)
  | @encoded c text line isBlank rest induction =>
      rcases List.append_eq_append_iff.1 whole with ⟨inside, reference, rfl⟩ | ⟨tail, rfl, rfl⟩
      · cases ends : inside.getLast? with
        | none =>
            rw [List.getLast?_eq_none_iff] at ends
            subst ends
            rw [List.append_nil] at reference
            have others := induction blank (List.nil_append _)
            rw [← reference]
            exact .encoded isBlank others
        | some d =>
            have semicolon : d = ';' := by
              have last := getLast?_encodeBlank c
              rw [reference, List.getLast?_append, ends] at last
              simpa using last
            subst semicolon
            have isEnd := blank ';' (List.mem_append_left _ (List.mem_of_getLast? ends))
            cases isEnd
      · rw [List.append_assoc]
        exact .encoded isBlank (induction blank rfl)

end Spells

theorem escapeOrderedMarker_eq (line : List Char) :
    escapeOrderedMarker line = line ∨
      ∃ digits delimiter rest, (∀ c ∈ digits, c.isDigit) ∧ (delimiter = '.' ∨ delimiter = ')') ∧
        line = digits ++ delimiter :: rest ∧
        escapeOrderedMarker line = digits ++ '\\' :: delimiter :: rest := by
  unfold escapeOrderedMarker
  dsimp only
  split
  · exact .inl rfl
  · split
    · next delimiter rest behind =>
        split
        · next marker =>
            right
            simp only [Bool.and_eq_true, Bool.or_eq_true, decide_eq_true_eq] at marker
            refine ⟨_, delimiter, rest, fun c member => ?_, marker.1, ?_, rfl⟩
            · exact List.mem_takeWhile_imp member
            · rw [← behind, List.takeWhile_append_dropWhile]
        · exact .inl rfl
    · exact .inl rfl

theorem Spells.escapeOrderedMarker (spells : Spells text written) :
    Spells text (Writer.escapeOrderedMarker written) := by
  rcases escapeOrderedMarker_eq written with same | ⟨digits, d, rest, all, isEnd, rfl, changed⟩
  · rwa [same]
  · obtain ⟨behind, rfl, marker⟩ := spells.of_append_digits all
    have punctuation : isAsciiPunctuation d ∧ d ≠ '\\' ∧ d ≠ '&' := by
      rcases isEnd with rfl | rfl <;> decide
    obtain ⟨word, rfl, afterwards⟩ := marker.of_cons punctuation.2.1 punctuation.2.2
    rw [changed]
    exact .append_digits all (.escaped punctuation.1 afterwards)

theorem mem_of_startsBlock (starts : startsBlock (c :: rest)) :
    c ∈ ['>', '#', '+', '-', '='] := by
  simp only [startsBlock] at starts
  grind

theorem spells_escapeLineStart (inCell : Bool) (text : List Char) :
    Spells text (escapeLineStart inCell text) := by
  refine Spells.escapeOrderedMarker ?_
  split
  · next starts =>
      cases text with
      | nil => cases starts
      | cons c rest =>
          have opener := mem_of_startsBlock starts
          have bare : NeverEscaped (['>', '#', '+', '-', '='].contains ·) := by decide
          have punctuation : ∀ c ∈ ['>', '#', '+', '-', '='], isAsciiPunctuation c :=
            List.all_eq_true.1 (by decide)
          rw [escapeMarkup_cons_of_never bare inCell (by simpa using opener)]
          exact .escaped (punctuation c opener) (spells_escapeMarkup inCell rest)
  · exact spells_escapeMarkup inCell text

theorem spells_escapeText (atLineStart inCell : Bool) (text : List Char) :
    Spells text (escapeText atLineStart inCell text) := by
  unfold escapeText
  dsimp only
  split
  · split
    · exact spells_escapeLineStart inCell text
    · have spells := (spells_escapeMarkup inCell (text.dropWhile isBlank)).encodeBlanks
        fun c (member : c ∈ text.takeWhile isBlank) => List.mem_takeWhile_imp member
      rwa [List.takeWhile_append_dropWhile] at spells
  · exact spells_escapeMarkup inCell text

theorem encodeTrailingBlanks_eq (line : List Char) :
    ∃ body blanks, line = body ++ blanks ∧ (∀ c ∈ blanks, isBlank c) ∧
      (∀ c ∈ body.getLast?, isBlank c = false) ∧
      encodeTrailingBlanks line = body ++ encodeBlanks blanks := by
  refine ⟨trimEndWhile isBlank line, (line.reverse.takeWhile isBlank).reverse,
    (Text.trimEndWhile_append isBlank line).symm, ?_, Text.getLast?_trimEndWhile isBlank line,
    rfl⟩
  intro c member
  exact List.mem_takeWhile_imp (List.mem_reverse.1 member)

theorem Spells.encodeTrailingBlanks (spells : Spells text written) :
    Spells text (Writer.encodeTrailingBlanks written) := by
  obtain ⟨body, blanks, rfl, blank, -, encoded⟩ := encodeTrailingBlanks_eq written
  rw [encoded]
  exact spells.encode_end blank

/-! The ends of a spelling. -/

theorem Spells.head?_solid (spells : Spells text written)
    (solid : ∀ c ∈ text.head?, isBlank c = false) : ∀ c ∈ written.head?, isBlank c = false := by
  cases spells with
  | nil => exact solid
  | bare plain alone rest => exact solid
  | escaped punctuation rest => simp [isBlank]
  | encoded blank rest => simp [encodeBlank_eq, isBlank]

theorem Spells.getLast?_cases (spells : Spells text written) :
    written.getLast? = text.getLast? ∨
      (written.getLast? = some ';' ∧ ∃ c ∈ text.getLast?, isBlank c) := by
  induction spells with
  | nil => exact .inl rfl
  | bare plain alone rest induction =>
      rcases induction with same | ⟨ends, d, isLast, blank⟩
      · simp [List.getLast?_cons, same]
      · exact .inr (by simp [List.getLast?_cons, ends, Option.mem_def.1 isLast, blank])
  | escaped punctuation rest induction =>
      rcases induction with same | ⟨ends, d, isLast, blank⟩
      · simp [List.getLast?_cons, same]
      · exact .inr (by simp [List.getLast?_cons, ends, Option.mem_def.1 isLast, blank])
  | @encoded c text written blank rest induction =>
      rw [List.getLast?_append, getLast?_encodeBlank, List.getLast?_cons]
      rcases induction with same | ⟨ends, d, isLast, blankEnd⟩
      · cases found : text.getLast? <;> simp [same, found, blank]
      · exact .inr (by simp [ends, Option.mem_def.1 isLast, blankEnd])

theorem Spells.getLast?_eq (spells : Spells text written) :
    written.getLast? = text.getLast? ∨ written.getLast? = some ';' :=
  spells.getLast?_cases.imp_right And.left

theorem Spells.getLast?_solid (spells : Spells text written)
    (solid : ∀ c ∈ text.getLast?, isBlank c = false) :
    ∀ c ∈ written.getLast?, isBlank c = false := by
  rcases spells.getLast?_eq with same | ends
  · rwa [same]
  · simp [ends, isBlank]

theorem head?_encodeBlanks_solid (blanks : List Char) :
    ∀ c ∈ (encodeBlanks blanks).head?, isBlank c = false := by
  cases blanks with
  | nil => simp [encodeBlanks]
  | cons b blanks => simp [encodeBlanks, encodeBlank_eq, isBlank]

theorem getLast?_encodeBlanks_solid (blanks : List Char) :
    ∀ c ∈ (encodeBlanks blanks).getLast?, isBlank c = false := by
  rcases List.eq_nil_or_concat blanks with rfl | ⟨start, b, rfl⟩
  · simp [encodeBlanks]
  · simp [encodeBlanks, getLast?_encodeBlank, isBlank]

theorem head?_escapeText_solid (inCell : Bool) (text : List Char) :
    ∀ c ∈ (escapeText true inCell text).head?, isBlank c = false := by
  unfold escapeText
  rw [if_pos rfl]
  dsimp only
  split
  · next unindented =>
      refine (spells_escapeLineStart inCell text).head?_solid fun c first => ?_
      cases text with
      | nil => cases first
      | cons d rest =>
          cases first
          refine eq_false_of_ne_true fun blank => ?_
          simp [blank] at unindented
  · next indented =>
      cases found : text.takeWhile isBlank with
      | nil => simp [found] at indented
      | cons b blanks => simp [encodeBlanks, encodeBlank_eq, isBlank]

theorem head?_encodeTrailingBlanks_solid (solid : ∀ c ∈ line.head?, isBlank c = false) :
    ∀ c ∈ (encodeTrailingBlanks line).head?, isBlank c = false := by
  obtain ⟨body, blanks, rfl, -, -, encoded⟩ := encodeTrailingBlanks_eq line
  rw [encoded]
  cases body with
  | nil => exact head?_encodeBlanks_solid blanks
  | cons c body => exact solid

theorem getLast?_encodeTrailingBlanks_solid (line : List Char) :
    ∀ c ∈ (encodeTrailingBlanks line).getLast?, isBlank c = false := by
  obtain ⟨body, blanks, rfl, -, solid, encoded⟩ := encodeTrailingBlanks_eq line
  rw [encoded, List.getLast?_append]
  cases found : (encodeBlanks blanks).getLast? with
  | none => exact solid
  | some c =>
      have ends := getLast?_encodeBlanks_solid blanks
      rwa [found] at ends

end EditorMarkdown.Writer
