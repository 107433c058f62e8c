import EditorMarkdown.Proofs.Text.Lines
import EditorMarkdown.Proofs.Writer.Spelling

/-!
Text at the start of a line opens no block. Escaping looks at the text before anything is escaped,
and readers at what is written, so what decides about a block has to be the same in both.
-/

namespace EditorMarkdown.Writer

open Text (isBlank isWhite trimEndWhile span_append span_append_inj)

variable {text line rest : List Char} {c : Char}

/-- Whether a line is nothing but a run of dashes or of equals signs, with blanks behind it. Below a
line of text it makes a heading of that text. -/
def IsUnderline (line : List Char) : Prop :=
  ∃ c n blanks, (c = '=' ∨ c = '-') ∧ (∀ b ∈ blanks, isBlank b) ∧
    line = List.replicate (n + 1) c ++ blanks

/-- The lines at whose start a reader finds more than text: an indentation, a quote, HTML or a link
definition, a heading, an item of a list, a code fence, or a heading's underline. -/
inductive OpensBlock : List Char → Prop
  | blank {c : Char} (isBlank : isBlank c) (rest : List Char) : OpensBlock (c :: rest)
  | bracket {c : Char} (isOpener : c ∈ ['>', '<', '[']) (rest : List Char) : OpensBlock (c :: rest)
  | heading {n : Nat} {rest : List Char} (low : 1 ≤ n) (high : n ≤ 6)
      (ends : ∀ d ∈ rest.head?, Text.isBlank d) : OpensBlock (List.replicate n '#' ++ rest)
  | bullet {c : Char} {rest : List Char} (isBullet : c ∈ ['-', '+', '*'])
      (ends : ∀ d ∈ rest.head?, Text.isBlank d) : OpensBlock (c :: rest)
  | ordered {digits : List Char} {c : Char} {rest : List Char} (low : 1 ≤ digits.length)
      (high : digits.length ≤ 9) (all : ∀ d ∈ digits, d.isDigit) (delimits : c = '.' ∨ c = ')')
      (ends : ∀ d ∈ rest.head?, Text.isBlank d) : OpensBlock (digits ++ c :: rest)
  | fence {c : Char} (isFence : c ∈ ['\x60', '~']) (rest : List Char) :
      OpensBlock (c :: c :: c :: rest)
  | underline {line : List Char} (isUnderline : IsUnderline line) : OpensBlock line

theorem isDigit_of_isBlank (blank : isBlank c) : c.isDigit = false := by
  rcases isBlank_iff.1 blank with rfl | rfl <;> rfl

theorem endsWord_iff : endsWord text ↔ ∀ c ∈ text.head?, isBlank c := by
  cases text <;> simp [endsWord]

/-! What decides about a block is not changed by escaping. -/

theorem endsWord_escapeMarkup (inCell : Bool) (rest : List Char) :
    endsWord (escapeMarkup inCell rest) = endsWord rest := by
  cases rest with
  | nil => rfl
  | cons c rest =>
      rcases escapeMarkup_cons inCell c rest with ⟨escaped, member⟩ | ⟨bare, -⟩
      · rw [escaped]
        exact (neverEscaped_isBlank c member).symm
      · rw [bare, endsWord, endsWord]

theorem escapeMarkup_of_not_mem {inCell : Bool} (unescaped : '\\' ∉ escapeMarkup inCell text) :
    escapeMarkup inCell text = text := by
  induction text with
  | nil => rfl
  | cons c rest induction =>
      rcases escapeMarkup_cons inCell c rest with ⟨escaped, -⟩ | ⟨bare, -⟩
      · simp [escaped] at unescaped
      · rw [bare] at unescaped ⊢
        rw [induction fun member => unescaped (List.mem_cons_of_mem c member)]

theorem startsBlock_of_heading {inCell : Bool} {n : Nat} {tail : List Char} (few : n < 6)
    (ends : ∀ d ∈ tail.head?, isBlank d)
    (written : escapeMarkup inCell rest = List.replicate n '#' ++ tail) :
    startsBlock ('#' :: rest) := by
  have hashes : NeverEscaped (· = '#') := by decide
  have stops : ∀ d ∈ tail.head?, decide (d = '#') = false := by
    intro d first
    rcases isBlank_iff.1 (ends d first) with rfl | rfl <;> rfl
  obtain ⟨run, behind⟩ := span_escapeMarkup hashes inCell rest
  have hashRun : ∀ d ∈ List.replicate n '#', decide (d = '#') := by simp
  obtain ⟨writtenRun, writtenBehind⟩ := span_append hashRun stops
  rw [written, writtenRun] at run
  rw [written, writtenBehind] at behind
  have word : endsWord (rest.dropWhile (· = '#')) := by
    rw [← endsWord_escapeMarkup inCell, ← behind]
    exact endsWord_iff.2 ends
  simp [startsBlock, ← run, word, few]

theorem startsBlock_of_underline {n : Nat} {blanks : List Char} (isRun : c = '=' ∨ c = '-')
    (blank : ∀ b ∈ blanks, isBlank b) :
    startsBlock (c :: (List.replicate n c ++ blanks)) := by
  have white : ∀ b ∈ blanks.reverse, isWhite b := by
    intro b member
    rcases isBlank_iff.1 (blank b (List.mem_reverse.1 member)) with rfl | rfl <;> rfl
  have trimmed : trimEndWhile isWhite (c :: (List.replicate n c ++ blanks)) =
      trimEndWhile isWhite (c :: List.replicate n c) := by
    rw [trimEndWhile, ← List.cons_append, List.reverse_append, List.dropWhile_append_of_pos white]
    rfl
  have all : (trimEndWhile isWhite (c :: List.replicate n c)).all (· = c) := by
    refine List.all_eq_true.2 fun d member => ?_
    have inRun := List.dropWhile_subset _ (List.mem_reverse.1 member)
    rcases List.mem_cons.1 (List.mem_reverse.1 inRun) with rfl | behind
    · exact decide_eq_true rfl
    · exact decide_eq_true (List.eq_of_mem_replicate behind)
  rcases isRun with rfl | rfl <;> simp [startsBlock, trimmed, all]

/-! The marker of an ordered list. -/

section

variable {digits : List Char} (low : 1 ≤ digits.length) (high : digits.length ≤ 9)
  (all : ∀ d ∈ digits, d.isDigit) (delimits : c = '.' ∨ c = ')')
  (ends : ∀ d ∈ rest.head?, isBlank d)

include low high all delimits ends

theorem escapeOrderedMarker_marker :
    escapeOrderedMarker (digits ++ c :: rest) = digits ++ '\\' :: c :: rest := by
  have stops : ∀ d ∈ (c :: rest).head?, d.isDigit = false := by
    intro d first
    cases first
    rcases delimits with rfl | rfl <;> rfl
  obtain ⟨run, behind⟩ := span_append all stops
  have filled : digits.isEmpty = false := by
    cases digits with
    | nil => cases low
    | cons => rfl
  have few : ¬9 < digits.length := by omega
  have isMarker : (decide (c = '.') || decide (c = ')')) && endsWord rest := by
    simpa [endsWord_iff.2 ends] using delimits
  simp only [escapeOrderedMarker, run, behind, filled, few, Bool.or_self, decide_false,
    Bool.false_eq_true, if_false, isMarker, if_true]

/-- What is escaped is no marker any more. -/
theorem escapeOrderedMarker_ne_marker (line : List Char) :
    escapeOrderedMarker line ≠ digits ++ c :: rest := by
  intro written
  rcases escapeOrderedMarker_eq line with same | ⟨others, d, tail, allOthers, -, -, changed⟩
  · have marker := escapeOrderedMarker_marker low high all delimits ends
    rw [← written, same, written] at marker
    simp at marker
  · have notDigit : c.isDigit = false ∧ c ≠ '\\' := by rcases delimits with rfl | rfl <;> decide
    have stops : ∀ d ∈ (c :: rest).head?, d.isDigit = false := by simp [notDigit]
    have stopsEscape : ∀ e ∈ ('\\' :: d :: tail).head?, e.isDigit = false := by simp
    have whole : digits ++ c :: rest = others ++ '\\' :: d :: tail := written.symm.trans changed
    have behind := (span_append_inj all allOthers stops stopsEscape whole).2
    exact notDigit.2 (List.cons.inj behind).1

end

theorem escapeOrderedMarker_of_not_digit (other : c.isDigit = false) (rest : List Char) :
    escapeOrderedMarker (c :: rest) = c :: rest := by
  simp [escapeOrderedMarker, other]

theorem eq_of_escapeOrderedMarker_cons {d : Char} {tail : List Char} (other : d.isDigit = false)
    (written : escapeOrderedMarker (c :: rest) = d :: tail) : c = d ∧ rest = tail := by
  cases digit : c.isDigit with
  | false =>
      rw [escapeOrderedMarker_of_not_digit digit] at written
      exact List.cons.inj written
  | true =>
      exfalso
      rcases escapeOrderedMarker_eq (c :: rest) with same | ⟨digits, e, _, -, isEnd, whole, changed⟩
      · rw [same] at written
        rw [(List.cons.inj written).1, other] at digit
        cases digit
      · cases digits with
        | nil =>
            rw [(List.cons.inj whole).1] at digit
            rcases isEnd with rfl | rfl <;> cases digit
        | cons first digits =>
            rw [changed] at written
            rw [(List.cons.inj whole).1, (List.cons.inj written).1, other] at digit
            cases digit

theorem escapeText_cases (inCell : Bool) (text : List Char) :
    (∀ c ∈ (escapeText true inCell text).head?, c = '\\' ∨ c = '&') ∨
      ∃ c rest, text = c :: rest ∧ isMarkup c = false ∧ isBlank c = false ∧
        startsBlock text = false ∧
        escapeText true inCell text = escapeOrderedMarker (c :: escapeMarkup inCell rest) := by
  rw [escapeText, if_pos rfl]
  dsimp only
  cases text with
  | nil => simp [escapeLineStart, escapeOrderedMarker, startsBlock]
  | cons c rest =>
      cases blank : isBlank c with
      | true =>
          left
          simp [blank, encodeBlanks, encodeBlank_eq]
      | false =>
          have unindented : ((c :: rest).takeWhile isBlank).isEmpty := by simp [blank]
          rw [if_pos unindented, escapeLineStart]
          have protects : ∀ line, ∀ d ∈ (escapeOrderedMarker ('\\' :: line)).head?, d = '\\' := by
            intro line d first
            rw [escapeOrderedMarker_of_not_digit (by decide)] at first
            exact (Option.some.inj first).symm
          split
          · exact .inl fun d first => .inl (protects _ d first)
          · next harmless =>
              rcases escapeMarkup_cons inCell c rest with ⟨escaped, -⟩ | ⟨bare, plain, -⟩
              · rw [escaped]
                exact .inl fun d first => .inl (protects _ d first)
              · rw [bare]
                exact .inr ⟨c, rest, rfl, plain, blank, eq_false_of_ne_true harmless, rfl⟩

def openers : List Char := [' ', '\t', '>', '<', '[', '#', '-', '+', '*', '\x60', '~', '=']

theorem OpensBlock.head_cases (opens : OpensBlock line) :
    ∃ c rest, line = c :: rest ∧ (c.isDigit ∨ c ∈ openers) := by
  cases opens with
  | blank isBlank rest =>
      refine ⟨_, rest, rfl, .inr ?_⟩
      rcases isBlank_iff.1 isBlank with rfl | rfl <;> decide
  | bracket isOpener rest =>
      have brackets : ∀ c ∈ ['>', '<', '['], c ∈ openers := by simp [openers]
      exact ⟨_, rest, rfl, .inr (brackets _ isOpener)⟩
  | heading low high ends =>
      obtain ⟨n, rfl⟩ := Nat.exists_eq_add_of_le' low
      exact ⟨'#', List.replicate n '#' ++ _, rfl, .inr (by decide)⟩
  | bullet isBullet ends =>
      have bullets : ∀ c ∈ ['-', '+', '*'], c ∈ openers := by simp [openers]
      exact ⟨_, _, rfl, .inr (bullets _ isBullet)⟩
  | @ordered digits c rest low high all delimits ends =>
      cases digits with
      | nil => cases low
      | cons d digits => exact ⟨d, _, rfl, .inl (all d List.mem_cons_self)⟩
  | fence isFence rest =>
      have fences : ∀ c ∈ ['\x60', '~'], c ∈ openers := by simp [openers]
      exact ⟨_, _, rfl, .inr (fences _ isFence)⟩
  | underline isUnderline =>
      obtain ⟨c, n, blanks, isRun, -, rfl⟩ := isUnderline
      refine ⟨c, List.replicate n c ++ blanks, rfl, .inr ?_⟩
      rcases isRun with rfl | rfl <;> decide

section

variable {inCell : Bool} (plain : isMarkup c = false) (harmless : startsBlock (c :: rest) = false)

include plain harmless

/-- Text that starts neither with a blank nor with markup, and is not seen to start a block, has
nothing escaped in it that would make it start one. -/
theorem not_opensBlock_of_harmless (unindented : isBlank c = false) :
    ¬OpensBlock (escapeOrderedMarker (c :: escapeMarkup inCell rest)) := by
  intro opens
  generalize whole : escapeOrderedMarker (c :: escapeMarkup inCell rest) = line at opens
  have unmarked : ∀ {d tail}, line = d :: tail → d.isDigit = false → isMarkup d = false := by
    rintro d tail rfl other
    rwa [← (eq_of_escapeOrderedMarker_cons other whole).1]
  cases opens with
  | blank isBlank tail =>
      obtain ⟨rfl, -⟩ := eq_of_escapeOrderedMarker_cons (isDigit_of_isBlank isBlank) whole
      simp [isBlank] at unindented
  | bracket isOpener tail =>
      have kinds : ∀ d ∈ ['>', '<', '['], d.isDigit = false ∧ (d = '>' ∨ isMarkup d) := by
        simp [isMarkup]
      obtain ⟨other, rfl | markup⟩ := kinds _ isOpener
      · obtain ⟨rfl, -⟩ := eq_of_escapeOrderedMarker_cons other whole
        simp [startsBlock] at harmless
      · simp [unmarked rfl other] at markup
  | heading low high ends =>
      obtain ⟨n, rfl⟩ := Nat.exists_eq_add_of_le' low
      obtain ⟨rfl, behind⟩ := eq_of_escapeOrderedMarker_cons (by decide) whole
      rw [startsBlock_of_heading (by omega) ends behind] at harmless
      cases harmless
  | bullet isBullet ends =>
      have kinds : ∀ d ∈ ['-', '+', '*'], d.isDigit = false ∧ (d = '-' ∨ d = '+' ∨ isMarkup d) := by
        simp [isMarkup]
      obtain ⟨other, kind⟩ := kinds _ isBullet
      obtain ⟨rfl, behind⟩ := eq_of_escapeOrderedMarker_cons other whole
      have word : endsWord rest := by
        rw [← endsWord_escapeMarkup inCell, behind]
        exact endsWord_iff.2 ends
      rcases kind with rfl | rfl | markup
      · simp [startsBlock, word] at harmless
      · simp [startsBlock, word] at harmless
      · simp [markup] at plain
  | ordered low high all delimits ends =>
      exact escapeOrderedMarker_ne_marker low high all delimits ends _ whole
  | fence isFence tail =>
      have kinds : ∀ d ∈ ['\x60', '~'], d.isDigit = false ∧ isMarkup d := by simp [isMarkup]
      obtain ⟨other, markup⟩ := kinds _ isFence
      simp [unmarked rfl other] at markup
  | underline isUnderline =>
      obtain ⟨d, n, blanks, isRun, blank, rfl⟩ := isUnderline
      have other : d.isDigit = false := by rcases isRun with rfl | rfl <;> rfl
      obtain ⟨rfl, behind⟩ := eq_of_escapeOrderedMarker_cons other whole
      have same : rest = List.replicate n c ++ blanks := by
        refine Eq.trans (escapeMarkup_of_not_mem ?_).symm behind
        intro member
        rw [behind] at member
        rcases List.mem_append.1 member with inRun | inBlanks
        · rcases isRun with rfl | rfl <;> cases List.eq_of_mem_replicate inRun
        · cases blank _ inBlanks
      rw [same, startsBlock_of_underline isRun blank] at harmless
      cases harmless

end

/-- A line of text is never taken for the start of a block. -/
theorem escapeText_not_opensBlock (inCell : Bool) (text : List Char) :
    ¬OpensBlock (escapeText true inCell text) := by
  rcases escapeText_cases inCell text with
    inert | ⟨c, rest, rfl, plain, unindented, harmless, written⟩
  · intro opens
    obtain ⟨c, rest, whole, first⟩ := opens.head_cases
    rw [whole] at inert
    rcases inert c rfl with rfl | rfl <;> revert first <;> decide
  · rw [written]
    exact not_opensBlock_of_harmless plain harmless unindented

end EditorMarkdown.Writer
