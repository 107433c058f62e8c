import EditorMarkdown.Proofs.Markdown.Rows
import EditorMarkdown.Proofs.Writer.Decoding
import EditorMarkdown.Proofs.Writer.LineStart

/-!
Lines of a paragraph that are read as something else as a whole. An empty line ends the paragraph, a
rule stands in it for itself, and a row of hyphens makes a table of the line above. What is escaped
at the start of a line depends on a run of one character and on what stands right behind it, so a
rule with a gap further on is written as it is, and so is a row of hyphens with bars in it.
-/

namespace EditorMarkdown.Writer

open Markdown (IsDelimiterRow rowCells)
open Text (isBlank isWhite splitLines joinLines trimEndWhile)

variable {last : Bool} {text written line rest above : List Char} {c : Char}

/-! What readers look for. -/

/-- Whether a line is a rule: dashes, stars or underscores, at least three of one kind, with blanks
between and behind them and no more than three spaces before them. -/
def isRule (line : List Char) : Bool :=
  let signs := line.dropWhile (· = ' ')
  line.length ≤ signs.length + 3 && ['-', '*', '_'].any fun c =>
    signs.head? = some c && signs.all (fun d => d = c || isBlank d) && 3 ≤ signs.count c

/-- Whether a line makes a table of itself and the line above it. -/
def MakesTable (above line : List Char) : Prop :=
  IsDelimiterRow line ∧ (rowCells above).length = (rowCells line).length

instance (above line : List Char) : Decidable (MakesTable above line) :=
  inferInstanceAs (Decidable (_ ∧ _))

/-- A rule of dashes that starts with two of them and has a gap further on. -/
structure IsSpacedRule (line : List Char) : Prop where
  opening : 2 ≤ (line.takeWhile (· = '-')).length
  resumes : '-' ∈ line.dropWhile (· = '-')
  dashes : ∀ c ∈ line.dropWhile (· = '-'), c = '-' ∨ isBlank c

instance : DecidablePred IsSpacedRule := fun line =>
  let rest := line.dropWhile (· = '-')
  decidable_of_iff (2 ≤ (line.takeWhile (· = '-')).length ∧ '-' ∈ rest ∧
      rest.all fun c => c = '-' || isBlank c)
    ⟨fun ⟨opening, resumes, dashes⟩ => ⟨opening, resumes, by simpa [rest] using dashes⟩,
      fun spaced => ⟨spaced.opening, spaced.resumes, by simpa [rest] using spaced.dashes⟩⟩

theorem isRule_iff_of_head? (starts : ∀ c ∈ line.head?, isBlank c = false) :
    isRule line ↔ ∃ c ∈ ['-', '*', '_'],
      line.head? = some c ∧ (∀ d ∈ line, d = c ∨ isBlank d) ∧ 3 ≤ line.count c := by
  have signs : line.dropWhile (· = ' ') = line := by
    cases line with
    | nil => rfl
    | cons c rest =>
        have apart : c ≠ ' ' := by
          rintro rfl
          cases starts ' ' rfl
        simp [apart]
  simp only [isRule, signs]
  simp [and_assoc]

namespace IsSpacedRule

theorem eq_append (spaced : IsSpacedRule line) :
    ∃ n, line = List.replicate (n + 2) '-' ++ line.dropWhile (· = '-') := by
  obtain ⟨n, length⟩ := Nat.exists_eq_add_of_le' spaced.opening
  refine ⟨n, ?_⟩
  have run : line.takeWhile (· = '-') = List.replicate (n + 2) '-' := by
    refine List.eq_replicate_iff.2 ⟨length, fun c member => ?_⟩
    simpa using List.mem_takeWhile_imp member
  rw [← run, List.takeWhile_append_dropWhile]

theorem mem (spaced : IsSpacedRule line) (member : c ∈ line) : c = '-' ∨ isBlank c := by
  obtain ⟨n, whole⟩ := spaced.eq_append
  rw [whole, List.mem_append] at member
  rcases member with inRun | behind
  · exact .inl (List.eq_of_mem_replicate inRun)
  · exact spaced.dashes c behind

theorem head? (spaced : IsSpacedRule line) : line.head? = some '-' := by
  obtain ⟨n, whole⟩ := spaced.eq_append
  rw [whole]
  rfl

theorem starts (spaced : IsSpacedRule line) : ∀ c ∈ line.head?, isBlank c = false := by
  rw [spaced.head?]
  rintro c ⟨⟩
  rfl

theorem rule (spaced : IsSpacedRule line) : isRule line := by
  rw [isRule_iff_of_head? spaced.starts]
  refine ⟨'-', by decide, spaced.head?, fun d member => spaced.mem member, ?_⟩
  obtain ⟨n, whole⟩ := spaced.eq_append
  have behind : 0 < (line.dropWhile (· = '-')).count '-' := List.count_pos_iff.2 spaced.resumes
  rw [whole, List.count_append, List.count_replicate_self]
  omega

theorem startsBlock_eq (spaced : IsSpacedRule line) : startsBlock line = false := by
  have trimmed : (trimEndWhile isWhite line).all (· = '-') = false := by
    apply eq_false_of_ne_true
    intro all
    have white : ∀ c ∈ (line.reverse.takeWhile isWhite).reverse, isWhite c := fun c member =>
      List.mem_takeWhile_imp (List.mem_reverse.1 member)
    have stops : ∀ c ∈ (line.reverse.takeWhile isWhite).reverse.head?,
        decide (c = '-') = false := by
      intro c first
      apply decide_eq_false
      rintro rfl
      cases white '-' (List.mem_of_head? first)
    -- the gap would be all that is trimmed, but there is a dash behind it
    have gap := (Text.span_append (List.all_eq_true.1 all) stops).2
    rw [Text.trimEndWhile_append] at gap
    have dash := spaced.resumes
    rw [gap] at dash
    cases white '-' dash
  obtain ⟨n, whole⟩ := spaced.eq_append
  rw [List.replicate_succ, List.replicate_succ, List.cons_append, List.cons_append] at whole
  rw [whole] at trimmed ⊢
  simp [startsBlock, trimmed, endsWord, isBlank]

end IsSpacedRule

theorem isSpacedRule_of_startsBlock (dashes : ∀ c ∈ line, c = '-' ∨ isBlank c)
    (first : line.head? = some '-') (harmless : startsBlock line = false) : IsSpacedRule line := by
  obtain ⟨rest, rfl⟩ := List.head?_eq_some_iff.1 first
  have behind : ∀ c ∈ rest, c = '-' ∨ isBlank c := fun c member =>
    dashes c (List.mem_cons_of_mem _ member)
  refine ⟨?_, ?_, ?_⟩
  · cases rest with
    | nil => cases harmless
    | cons d rest =>
        rcases behind d List.mem_cons_self with rfl | blank
        · simp
        · simp [startsBlock, endsWord, blank] at harmless
  · by_contra gapless
    have blank : ∀ b ∈ rest.dropWhile (· = '-'), isBlank b := by
      intro b member
      refine (behind b (List.dropWhile_subset _ member)).resolve_left ?_
      rintro rfl
      exact gapless (by simpa using member)
    have run : rest.takeWhile (· = '-') =
        List.replicate (rest.takeWhile (· = '-')).length '-' := by
      refine List.eq_replicate_iff.2 ⟨rfl, fun c member => ?_⟩
      simpa using List.mem_takeWhile_imp member
    have starts := startsBlock_of_underline
      (n := (rest.takeWhile (· = '-')).length) (.inr rfl) blank
    rw [← run, List.takeWhile_append_dropWhile, harmless] at starts
    cases starts
  · intro c member
    exact dashes c (List.dropWhile_subset _ member)

/-! Lines that are written as they are. -/

theorem Spells.eq_of_not_mem (spells : Spells text written) (unescaped : '\\' ∉ written)
    (unreferenced : '&' ∉ written) : written = text ∧ ∀ c ∈ text, isMarkup c = false := by
  induction spells with
  | nil => simp
  | bare plain alone rest induction =>
      obtain ⟨rfl, unmarked⟩ := induction
        (fun member => unescaped (List.mem_cons_of_mem _ member))
        (fun member => unreferenced (List.mem_cons_of_mem _ member))
      exact ⟨rfl, List.forall_mem_cons.2 ⟨plain, unmarked⟩⟩
  | escaped punctuation rest induction => simp at unescaped
  | encoded blank rest induction => simp [encodeBlank_eq] at unreferenced

/-- What a line is written as where lines of text start; blanks at its end are encoded if it is not
the last one. -/
def writtenLine (last : Bool) (line : List Char) : List Char :=
  let escaped := escapeText true false line
  if last then escaped else encodeTrailingBlanks escaped

theorem spells_writtenLine (last : Bool) (line : List Char) :
    Spells line (writtenLine last line) := by
  have spells := spells_escapeText true false line
  cases last with
  | true => exact spells
  | false => exact spells.encodeTrailingBlanks

theorem head?_writtenLine_solid (last : Bool) (line : List Char) :
    ∀ c ∈ (writtenLine last line).head?, isBlank c = false := by
  have solid := head?_escapeText_solid false line
  cases last with
  | true => exact solid
  | false => exact head?_encodeTrailingBlanks_solid solid

/-- What it takes for a line without markup to be written as it is. -/
structure StaysBare (last : Bool) (line : List Char) : Prop where
  starts : ∀ c ∈ line.head?, isBlank c = false
  harmless : startsBlock line = false
  ends : last ∨ ∀ c ∈ line.getLast?, isBlank c = false

/-- The characters that are nowhere escaped; with a digit there may be the number of an item. -/
def isPlain (c : Char) : Bool := !isMarkup c && c ≠ '&' && !c.isDigit

theorem escapeText_of_isPlain (plain : ∀ c ∈ line, isPlain c)
    (starts : ∀ c ∈ line.head?, isBlank c = false) (harmless : startsBlock line = false) :
    escapeText true false line = line := by
  have unmarked : escapeMarkup false line = line := by
    clear starts harmless
    induction line with
    | nil => rfl
    | cons c rest induction =>
        have others := induction fun c member => plain c (List.mem_cons_of_mem _ member)
        have first := plain c List.mem_cons_self
        simp only [isPlain, Bool.and_eq_true, Bool.not_eq_true', decide_eq_true_eq] at first
        simp [escapeMarkup, first, others]
  cases line with
  | nil => rfl
  | cons c rest =>
      have digit : c.isDigit = false := by
        have first := plain c List.mem_cons_self
        simp only [isPlain, Bool.and_eq_true, Bool.not_eq_true'] at first
        exact first.2
      have unindented : ((c :: rest).takeWhile isBlank).isEmpty := by simp [starts c rfl]
      simp only [escapeText, unindented, if_true, escapeLineStart, harmless, unmarked,
        Bool.false_eq_true, if_false]
      exact escapeOrderedMarker_of_not_digit digit rest

theorem encodeTrailingBlanks_eq_iff (unreferenced : '&' ∉ line) :
    encodeTrailingBlanks text = line ↔
      text = line ∧ ∀ c ∈ line.getLast?, isBlank c = false := by
  obtain ⟨body, blanks, rfl, blank, solid, encoded⟩ := encodeTrailingBlanks_eq text
  rw [encoded]
  rcases List.eq_nil_or_concat blanks with rfl | ⟨others, b, rfl⟩
  · rw [encodeBlanks, List.flatMap_nil, List.append_nil]
    refine ⟨?_, And.left⟩
    rintro rfl
    exact ⟨rfl, solid⟩
  · rw [List.concat_eq_append] at blank ⊢
    refine iff_of_false ?_ ?_
    · rintro rfl
      simp [encodeBlanks, encodeBlank_eq] at unreferenced
    · rintro ⟨rfl, ends⟩
      have isEnd := blank b (by simp)
      rw [ends b (by simp)] at isEnd
      cases isEnd

theorem writtenLine_eq_self_iff (plain : ∀ c ∈ line, isPlain c) :
    writtenLine last line = line ↔ StaysBare last line := by
  have unprotected : ∀ c ∈ line, c ≠ '\\' ∧ c ≠ '&' := by
    intro c member
    have isPlain := plain c member
    constructor
    · rintro rfl
      cases isPlain
    · rintro rfl
      cases isPlain
  have bare : escapeText true false line = line ↔
      (∀ c ∈ line.head?, isBlank c = false) ∧ startsBlock line = false := by
    refine ⟨fun same => ?_, fun both => escapeText_of_isPlain plain both.1 both.2⟩
    rcases escapeText_cases false line with inert | ⟨c, rest, rfl, -, solid, harmless, -⟩
    · cases line with
      | nil => exact ⟨by simp, rfl⟩
      | cons c rest =>
          rw [same] at inert
          have apart := unprotected c List.mem_cons_self
          exact absurd (inert c rfl) (not_or.2 apart)
    · exact ⟨by simpa using solid, harmless⟩
  have closed : writtenLine last line = line ↔
      escapeText true false line = line ∧ (last ∨ ∀ c ∈ line.getLast?, isBlank c = false) := by
    cases last with
    | true => simp [writtenLine]
    | false =>
        have unreferenced : '&' ∉ line := fun member => (unprotected _ member).2 rfl
        simpa [writtenLine] using encodeTrailingBlanks_eq_iff unreferenced
  rw [closed, bare]
  exact ⟨fun ⟨⟨starts, harmless⟩, ends⟩ => ⟨starts, harmless, ends⟩,
    fun stays => ⟨⟨stays.starts, stays.harmless⟩, stays.ends⟩⟩

/-! What is written for a line. -/

theorem blank_writtenLine_iff : (∀ c ∈ writtenLine last line, isBlank c) ↔ line = [] := by
  constructor
  · intro blank
    have solid := head?_writtenLine_solid last line
    have spells := spells_writtenLine last line
    cases written : writtenLine last line with
    | nil =>
        rw [written] at spells
        exact (spells.eq_of_not_mem List.not_mem_nil List.not_mem_nil).1.symm
    | cons c rest =>
        rw [written] at blank solid
        have first := solid c rfl
        rw [blank c List.mem_cons_self] at first
        cases first
  · rintro rfl
    cases last <;> simp [writtenLine, escapeText, escapeLineStart, escapeOrderedMarker, startsBlock,
      encodeTrailingBlanks, trimEndWhile, encodeBlanks]

theorem writtenLine_eq_self (unescaped : '\\' ∉ writtenLine last line)
    (unreferenced : '&' ∉ writtenLine last line) :
    writtenLine last line = line ∧ ∀ c ∈ line, isMarkup c = false :=
  (spells_writtenLine last line).eq_of_not_mem unescaped unreferenced

theorem isRule_writtenLine_iff :
    isRule (writtenLine last line) ↔
      IsSpacedRule line ∧ (last ∨ ∀ c ∈ line.getLast?, isBlank c = false) := by
  have plain : ∀ {line : List Char}, (∀ d ∈ line, d = '-' ∨ isBlank d) →
      ∀ d ∈ line, isPlain d := by
    intro line dashes d member
    rcases dashes d member with rfl | blank
    · rfl
    · rcases isBlank_iff.1 blank with rfl | rfl <;> rfl
  constructor
  · rw [isRule_iff_of_head? (head?_writtenLine_solid last line)]
    rintro ⟨c, isSign, first, all, -⟩
    have outside : ∀ d, ¬(d = c ∨ isBlank d) → d ∉ writtenLine last line := fun d other member =>
      other (all d member)
    have signs : ∀ c ∈ ['-', '*', '_'], c ≠ '\\' ∧ c ≠ '&' ∧ (c = '-' ∨ isMarkup c) := by
      simp [isMarkup]
    obtain ⟨backslash, ampersand, kind⟩ := signs c isSign
    have unescaped := outside '\\' (by simp [backslash.symm, isBlank])
    have unreferenced := outside '&' (by simp [ampersand.symm, isBlank])
    obtain ⟨same, unmarked⟩ := writtenLine_eq_self unescaped unreferenced
    rw [same] at first all
    have dash : c = '-' := by
      refine kind.resolve_right fun markup => ?_
      rw [unmarked c (List.mem_of_head? first)] at markup
      cases markup
    subst dash
    have stays := (writtenLine_eq_self_iff (plain all)).1 same
    exact ⟨isSpacedRule_of_startsBlock all first stays.harmless, stays.ends⟩
  · rintro ⟨spaced, ends⟩
    have same := (writtenLine_eq_self_iff (plain fun d => spaced.mem)).2
      ⟨spaced.starts, spaced.startsBlock_eq, ends⟩
    rw [same]
    exact spaced.rule

theorem makesTable_writtenLine_iff :
    MakesTable above (writtenLine last line) ↔ MakesTable above line ∧ StaysBare last line := by
  have plain : ∀ {line : List Char}, IsDelimiterRow line → ∀ c ∈ line, isPlain c := by
    intro line delimits c member
    rcases delimits.mem member with rfl | rfl | rfl | blank
    · rfl
    · rfl
    · rfl
    · rcases isBlank_iff.1 blank with rfl | rfl <;> rfl
  constructor
  · intro makes
    have outside : ∀ d, isPlain d = false → d ∉ writtenLine last line := by
      intro d other member
      rw [plain makes.1 d member] at other
      cases other
    have same := (writtenLine_eq_self (outside '\\' rfl) (outside '&' rfl)).1
    rw [same] at makes
    exact ⟨makes, (writtenLine_eq_self_iff (plain makes.1)).1 same⟩
  · rintro ⟨makes, stays⟩
    rwa [(writtenLine_eq_self_iff (plain makes.1)).2 stays]

/-! Paragraphs. -/

theorem getElem?_spellLines (index : Nat) : ∀ lines : List (List Char),
    (spellLines false lines)[index]? =
      lines[index]?.map (writtenLine (decide (index + 1 = lines.length)))
  | [] => by simp [spellLines]
  | [line] => by
      cases index <;> simp [spellLines, writtenLine]
  | line :: next :: lines => by
      cases index with
      | zero => simp [spellLines, writtenLine]
      | succ index => simpa [spellLines] using getElem?_spellLines index (next :: lines)

theorem length_spellLines : ∀ lines : List (List Char),
    (spellLines false lines).length = lines.length
  | [] => rfl
  | [_] => rfl
  | _ :: next :: lines => congrArg Nat.succ (length_spellLines (next :: lines))

def paragraphLines (value : String) : List (List Char) :=
  splitLines (Text.dropFinalNewline (Markdown.toText .standard [.paragraph [.text value]]).toList)

theorem toText_paragraph {value : String} (ends : value.toList.getLast? = some c)
    (apart : c ≠ '\n') :
    (Markdown.toText .standard [.paragraph [.text value]]).toList =
      joinLines (spellLines false (splitLines value.toList)) ++ ['\n'] := by
  have spells := spells_spellLines false (splitLines value.toList)
  rw [Text.joinLines_splitLines] at spells
  have bare : Options.standard.handlers = [] := rfl
  have written := blocksText_paragraph_text bare value
  rw [← written]
  rcases spells.getLast?_eq with same | semicolon
  · exact toText_of_getLast? (by rw [written, same, ends]) apart
  · exact toText_of_getLast? (by rw [written, semicolon]) (by decide)

theorem paragraphLines_eq {value : String} (ends : value.toList.getLast? = some c)
    (apart : c ≠ '\n') : paragraphLines value = spellLines false (splitLines value.toList) := by
  rw [paragraphLines, toText_paragraph ends apart]
  simp only [Text.dropFinalNewline, List.getLast?_concat, if_pos, List.dropLast_concat]
  apply Text.splitLines_joinLines
  · exact spellLines_ne_nil false (Text.splitLines_ne_nil _)
  · exact single_of_mem_spellLines fun _ => Text.not_mem_of_mem_splitLines

/-- A paragraph of text has as many lines as the text. An empty line is written for an empty one
only, a rule for a rule of dashes with a gap, and a line that makes a table of the line above it for
such a line that starts like text. -/
theorem paragraph_lines {value : String} (ends : value.toList.getLast? = some c)
    (apart : c ≠ '\n') :
    let lines := splitLines value.toList
    (Markdown.toText .standard [.paragraph [.text value]]).toList =
        joinLines (paragraphLines value) ++ ['\n'] ∧
      (paragraphLines value).length = lines.length ∧
      ∀ index line out, lines[index]? = some line → (paragraphLines value)[index]? = some out →
        let last := decide (index + 1 = lines.length)
        ((∀ c ∈ out, isBlank c) ↔ line = []) ∧
          (isRule out ↔ IsSpacedRule line ∧ (last ∨ ∀ c ∈ line.getLast?, isBlank c = false)) ∧
          ∀ above, MakesTable above out ↔ MakesTable above line ∧ StaysBare last line := by
  intro lines
  rw [paragraphLines_eq ends apart]
  refine ⟨toText_paragraph ends apart, length_spellLines lines, ?_⟩
  intro index line out isLine isOut
  rw [getElem?_spellLines, isLine, Option.map_some, Option.some_inj] at isOut
  subst isOut
  exact ⟨blank_writtenLine_iff, isRule_writtenLine_iff, fun above => makesTable_writtenLine_iff⟩

theorem paragraph_lines_bullets :
    "- - -\n|a|b|\n- | -".toList.getLast? = some '-' ∧ '-' ≠ '\n' ∧
      (paragraphLines "- - -\n|a|b|\n- | -").length = 3 ∧
      ∀ out ∈ paragraphLines "- - -\n|a|b|\n- | -",
        ¬isRule out ∧ ∀ above, ¬MakesTable above out := by
  have ends : "- - -\n|a|b|\n- | -".toList.getLast? = some '-' := by decide
  have apart : '-' ≠ '\n' := by decide
  obtain ⟨-, count, each⟩ := paragraph_lines ends apart
  have lines : ∀ line ∈ splitLines "- - -\n|a|b|\n- | -".toList,
      ¬IsSpacedRule line ∧ (IsDelimiterRow line → startsBlock line = true) := by
    decide +kernel
  refine ⟨ends, apart, count.trans (by decide), ?_⟩
  intro out member
  obtain ⟨index, isOut⟩ := List.mem_iff_getElem?.1 member
  obtain ⟨inRange, -⟩ := List.getElem?_eq_some_iff.1 isOut
  rw [count] at inRange
  have isLine := List.getElem?_eq_getElem inRange
  obtain ⟨-, rule, table⟩ := each index _ out isLine isOut
  obtain ⟨noRule, block⟩ := lines _ (List.mem_of_getElem? isLine)
  refine ⟨fun isRule => noRule (rule.1 isRule).1, fun above makes => ?_⟩
  obtain ⟨⟨delimits, -⟩, stays⟩ := (table above).1 makes
  have harmless := stays.harmless
  rw [block delimits] at harmless
  cases harmless

structure IsParagraphText (value : String) : Prop where
  filled : ∃ c ∈ value.toList, isWhite c = false
  returnless : '\r' ∉ value.toList
  starts : value.toList.head? ≠ some '\n'
  ends : value.toList.getLast? ≠ some '\n'

/-- A rule of dashes with a gap stays a rule, an empty line stays empty, and hyphens with a bar make
a table of the line above. -/
theorem paragraph_lines_taken :
    (Markdown.toText .standard [.paragraph [.text "-- -"]] = "-- -\n" ∧
        ¬∀ value, IsParagraphText value → ∀ out ∈ paragraphLines value, ¬isRule out) ∧
      (Markdown.toText .standard [.paragraph [.text "a\n\nb"]] = "a\n\nb\n" ∧
        ¬∀ value, IsParagraphText value → ∀ out ∈ paragraphLines value,
          ∃ c ∈ out, isBlank c = false) ∧
      Markdown.toText .standard [.paragraph [.text "a|b\n-|-"]] = "a|b\n-|-\n" ∧
        ¬∀ value, IsParagraphText value → ∀ index above out,
          (paragraphLines value)[index]? = some above →
            (paragraphLines value)[index + 1]? = some out → ¬MakesTable above out := by
  refine ⟨⟨by decide +kernel, ?_⟩, ⟨by decide +kernel, ?_⟩, by decide +kernel, ?_⟩
  · intro clear
    have isText : IsParagraphText "-- -" := ⟨⟨'-', by decide, rfl⟩, by decide, by decide, by decide⟩
    exact clear "-- -" isText ['-', '-', ' ', '-'] (by decide +kernel) rfl
  · intro filled
    have isText : IsParagraphText "a\n\nb" :=
      ⟨⟨'a', by decide, rfl⟩, by decide, by decide, by decide⟩
    obtain ⟨c, member, -⟩ := filled "a\n\nb" isText [] (by decide +kernel)
    cases member
  · intro clear
    have isText : IsParagraphText "a|b\n-|-" :=
      ⟨⟨'a', by decide, rfl⟩, by decide, by decide, by decide⟩
    have makes : MakesTable ['a', '|', 'b'] ['-', '|', '-'] := by decide
    exact clear "a|b\n-|-" isText 0 _ _ (by decide +kernel) (by decide +kernel) makes

end EditorMarkdown.Writer
