import EditorMarkdown.Proofs.Writer.Decoding
import Mathlib.Data.List.Basic

/-!
Delimiter runs as readers see them. A run opens an emphasis if it is left-flanking and closes one if
it is right-flanking, which the characters beside it decide. The writer sets its delimiters without
a look at these characters, and escaping leaves them of the same sort, so a delimiter has effect
just where it would have it between the bare texts.
-/

namespace EditorMarkdown.Writer

open Markdown (Node)
open Text (isBlank isAsciiPunctuation isPunctuation)

variable {text written line rest : List Char} {c : Char}

/-! Reading. -/

def isUnicodeSpace (c : Char) : Bool :=
  c = '\t' || c = '\n' || c = '\x0c' || c = '\r' || c = ' ' || c.toNat = 0xA0 || c.toNat = 0x1680 ||
    (0x2000 ≤ c.toNat && c.toNat ≤ 0x200A) || c.toNat = 0x202F || c.toNat = 0x205F ||
    c.toNat = 0x3000

/-- A delimiter run: its length, and the characters before and after it in the text. -/
structure DelimiterRun where
  before : Option Char
  length : Nat
  after : Option Char
  deriving DecidableEq, Repr

/-- Whether a character beside a run ends a word. The ends of the text count as white space. -/
def isBoundary (beside : Option Char) : Bool :=
  beside.all isUnicodeSpace || beside.any isPunctuation

def DelimiterRun.isLeftFlanking (run : DelimiterRun) : Bool :=
  !run.after.all isUnicodeSpace && (!run.after.any isPunctuation || isBoundary run.before)

def DelimiterRun.isRightFlanking (run : DelimiterRun) : Bool :=
  !run.before.all isUnicodeSpace && (!run.before.any isPunctuation || isBoundary run.after)

def runsFrom (delimiter : Char) : Nat → Option Char → List Char → List DelimiterRun
  | _, _, [] => []
  | wait + 1, _, c :: rest => runsFrom delimiter wait (some c) rest
  | 0, previous, c :: rest =>
      if c = '\\' then
        runsFrom delimiter (if rest.head?.any isAsciiPunctuation then 1 else 0) (some c) rest
      else if c = delimiter then
        let more := (rest.takeWhile (· = delimiter)).length
        ⟨previous, more + 1, (rest.dropWhile (· = delimiter)).head?⟩ ::
          runsFrom delimiter more (some c) rest
      else runsFrom delimiter 0 (some c) rest

/-- The runs of a delimiter in a text without code, links and tags. A delimiter behind a backslash
belongs to no run. -/
def delimiterRuns (delimiter : Char) (text : List Char) : List DelimiterRun :=
  runsFrom delimiter 0 none text

/-! Scanning what is written. -/

section

variable {delimiter : Char}

theorem ne_of_not_isMarkup (markup : isMarkup delimiter) (plain : isMarkup c = false) :
    c ≠ delimiter := by
  rintro rfl
  simp [markup] at plain

theorem runsFrom_plain (markup : isMarkup delimiter) (plain : ∀ c ∈ line, isMarkup c = false)
    (previous : Option Char) (rest : List Char) :
    runsFrom delimiter 0 previous (line ++ rest) =
      runsFrom delimiter 0 (line.getLast?.or previous) rest := by
  induction line generalizing previous with
  | nil => rfl
  | cons c line induction =>
      have first := plain c List.mem_cons_self
      have unescaped : c ≠ '\\' := ne_of_not_isMarkup rfl first
      rw [List.cons_append, runsFrom, if_neg unescaped, if_neg (ne_of_not_isMarkup markup first),
        induction fun d member => plain d (List.mem_cons_of_mem c member)]
      cases ends : line.getLast? <;> simp [List.getLast?_cons, ends]

theorem Spells.runsFrom (spells : Spells text written) (markup : isMarkup delimiter)
    (previous : Option Char) (rest : List Char) :
    Writer.runsFrom delimiter 0 previous (written ++ rest) =
      Writer.runsFrom delimiter 0 (written.getLast?.or previous) rest := by
  induction spells generalizing previous with
  | nil => rfl
  | @bare c text written plain alone following induction =>
      have single : ∀ d ∈ [c], isMarkup d = false := by simpa using plain
      have first := runsFrom_plain markup single previous (written ++ rest)
      rw [List.cons_append, ← List.singleton_append, first, induction]
      cases ends : written.getLast? <;> simp [List.getLast?_cons, ends]
  | @escaped c text written punctuation following induction =>
      have skipped : Writer.runsFrom delimiter 0 previous ('\\' :: c :: written ++ rest) =
          Writer.runsFrom delimiter 0 (some c) (written ++ rest) := by
        simp [Writer.runsFrom, punctuation]
      rw [skipped, induction]
      cases ends : written.getLast? <;> simp [List.getLast?_cons, ends]
  | @encoded c text written blank following induction =>
      have plain : ∀ d ∈ encodeBlank c, isMarkup d = false := by
        unfold encodeBlank
        split <;> simp [isMarkup]
      rw [List.append_assoc, runsFrom_plain markup plain, induction, List.getLast?_append,
        Option.or_assoc]

theorem runsFrom_skip (delimiter : Char) (count : Nat) (rest : List Char) :
    runsFrom delimiter count (some delimiter) (List.replicate count delimiter ++ rest) =
      runsFrom delimiter 0 (some delimiter) rest := by
  induction count with
  | zero => rfl
  | succ count induction => exact induction

theorem runsFrom_run (apart : delimiter ≠ '\\') (ends : rest.head? ≠ some delimiter) (count : Nat)
    (previous : Option Char) :
    runsFrom delimiter 0 previous (List.replicate (count + 1) delimiter ++ rest) =
      ⟨previous, count + 1, rest.head?⟩ :: runsFrom delimiter 0 (some delimiter) rest := by
  have all : ∀ c ∈ List.replicate count delimiter, decide (c = delimiter) = true := by
    intro c member
    simp [List.eq_of_mem_replicate member]
  have stops : ∀ c ∈ rest.head?, decide (c = delimiter) = false := by
    intro c first
    refine decide_eq_false fun same => ends ?_
    rw [Option.mem_def.1 first, same]
  obtain ⟨run, behind⟩ := Text.span_append all stops
  rw [List.replicate_succ, List.cons_append, runsFrom, if_neg apart, if_pos rfl]
  simp only [run, behind, List.length_replicate, runsFrom_skip]

theorem head?_escapeMarkup_ne (markup : isMarkup delimiter) (apart : delimiter ≠ '\\')
    (behind : rest.head? ≠ some delimiter) (inCell : Bool) (text : List Char) :
    (escapeMarkup inCell text ++ rest).head? ≠ some delimiter := by
  cases text with
  | nil => exact behind
  | cons c text =>
      rcases escapeMarkup_cons inCell c text with ⟨escaped, -⟩ | ⟨bare, plain, -⟩
      · simpa [escaped] using apart.symm
      · simpa [bare] using ne_of_not_isMarkup markup plain

end

/-! The characters beside a run. -/

theorem head?_escapeMarkup_alike (inCell : Bool) (text : List Char) :
    (escapeMarkup inCell text).head?.all isUnicodeSpace = text.head?.all isUnicodeSpace ∧
      (escapeMarkup inCell text).head?.any isPunctuation = text.head?.any isPunctuation := by
  cases text with
  | nil => exact ⟨rfl, rfl⟩
  | cons c rest =>
      rcases escapeMarkup_cons inCell c rest with ⟨escaped, member⟩ | ⟨bare, -⟩
      · have alike : escapable.all fun c => !isUnicodeSpace c && isPunctuation c := by decide
        have first : ∀ c ∈ escapable, isUnicodeSpace c = false ∧ isPunctuation c = true := by
          simpa using List.all_eq_true.1 alike
        simp [escaped, first c member, first '\\' (by decide)]
      · simp [bare]

theorem getLast?_escapeMarkup (inCell : Bool) (text : List Char) :
    (escapeMarkup inCell text).getLast? = text.getLast? := by
  induction text with
  | nil => rfl
  | cons c rest induction =>
      rcases escapeMarkup_cons inCell c rest with ⟨escaped, -⟩ | ⟨bare, -⟩
      · simp [escaped, List.getLast?_cons, induction]
      · simp [bare, List.getLast?_cons, induction]

theorem isBoundary_of_isBlank (blank : isBlank c) : isBoundary (some c) := by
  rcases isBlank_iff.1 blank with rfl | rfl <;> rfl

theorem Spells.isBoundary_getLast? (spells : Spells text written) :
    isBoundary written.getLast? = isBoundary text.getLast? := by
  rcases spells.getLast?_cases with same | ⟨ends, c, isLast, blank⟩
  · rw [same]
  · rw [ends, Option.mem_def.1 isLast, isBoundary_of_isBlank blank]
    decide

theorem escapeMarkup_ne_nil (inCell : Bool) (filled : text ≠ []) :
    escapeMarkup inCell text ≠ [] := by
  intro empty
  have ends := getLast?_escapeMarkup inCell text
  rw [empty, List.getLast?_nil, eq_comm, List.getLast?_eq_none_iff] at ends
  exact filled ends

theorem isBoundary_head?_escapeMarkup (inCell : Bool) (text : List Char) :
    isBoundary (escapeMarkup inCell text ++ ['\n']).head? = isBoundary text.head? := by
  cases text with
  | nil => rfl
  | cons c rest =>
      have filled := escapeMarkup_ne_nil inCell (List.cons_ne_nil c rest)
      obtain ⟨space, punctuation⟩ := head?_escapeMarkup_alike inCell (c :: rest)
      rw [List.head?_append_of_ne_nil _ filled, isBoundary, isBoundary, space, punctuation]

/-! Stressed text. -/

/-- How a text is set off by delimiters. -/
inductive Stress where
  | emphasis
  | strong
  | delete
  deriving DecidableEq, Repr

namespace Stress

def node : Stress → List Node → Node
  | .emphasis => .emphasis
  | .strong => .strong
  | .delete => .delete

def delimiter : Stress → Char
  | .emphasis | .strong => '*'
  | .delete => '~'

def length : Stress → Nat
  | .emphasis => 1
  | .strong | .delete => 2

def marker (stress : Stress) : List Char := List.replicate stress.length stress.delimiter

theorem isMarkup_delimiter (stress : Stress) : isMarkup stress.delimiter := by
  cases stress <;> rfl

theorem delimiter_ne (stress : Stress) : stress.delimiter ≠ '\\' := by
  cases stress <;> decide

theorem push_marker (stress : Stress) (buffer : Buffer) :
    buffer.push stress.marker = ⟨buffer.text ++ stress.marker, false⟩ := by
  cases stress <;> rfl

theorem writeNode_node (stress : Stress) (scope : Scope) (children : List Node) (buffer : Buffer) :
    writeNode .standard scope false (stress.node children) buffer =
      (writeInlines .standard (scope.enter (stress.node children).kind) children
        (buffer.push stress.marker)).push stress.marker := by
  cases stress <;> rfl

theorem runsFrom_marker (stress : Stress) (ends : rest.head? ≠ some stress.delimiter)
    (previous : Option Char) :
    runsFrom stress.delimiter 0 previous (stress.marker ++ rest) =
      ⟨previous, stress.length, rest.head?⟩ ::
        runsFrom stress.delimiter 0 (some stress.delimiter) rest := by
  cases stress <;> exact runsFrom_run (by decide) ends _ previous

end Stress

theorem handlers_standard : Options.standard.handlers = [] := rfl

theorem writeNode_text {scope : Scope} (outside : scope.within .tableCell = false) {value : String}
    (single : '\n' ∉ value.toList) (buffer : Buffer) :
    writeNode .standard scope false (.text value) buffer =
      buffer.push (escapeText buffer.atLineStart false value.toList) := by
  simp only [writeNode, handled?_of_bare handlers_standard, ite_self, outside,
    Text.splitLines_of_not_mem single]
  rfl

def stressed (stress : Stress) (before inside after : String) : Node :=
  .paragraph [.text before, stress.node [.text inside], .text after]

variable {before inside after : String}

/-- Behind a marker a line has begun, so only the text before the markers can start it. -/
theorem blocksText_stressed (stress : Stress) (singleBefore : '\n' ∉ before.toList)
    (singleInside : '\n' ∉ inside.toList) (singleAfter : '\n' ∉ after.toList) :
    blocksText .standard [stressed stress before inside after] =
      escapeText true false before.toList ++ (stress.marker ++
        (escapeMarkup false inside.toList ++ (stress.marker ++
          escapeMarkup false after.toList))) := by
  have outer : (Scope.enter .paragraph ⟨[]⟩).within .tableCell = false := rfl
  have inner : ((Scope.enter .paragraph ⟨[]⟩).enter
      (stress.node [.text inside]).kind).within .tableCell = false := by
    cases stress <;> rfl
  rw [blocksText_singleton, stressed, writeNode, handled?_of_bare handlers_standard]
  simp only [ite_self, writeInlines, stress.writeNode_node, writeNode_text outer singleBefore,
    writeNode_text inner singleInside, writeNode_text outer singleAfter, stress.push_marker]
  simp [Buffer.empty, escapeText]

theorem toText_stressed (stress : Stress) (singleBefore : '\n' ∉ before.toList)
    (singleInside : '\n' ∉ inside.toList) (singleAfter : '\n' ∉ after.toList) :
    (Markdown.toText .standard [stressed stress before inside after]).toList =
      escapeText true false before.toList ++ (stress.marker ++
        (escapeMarkup false inside.toList ++ (stress.marker ++
          (escapeMarkup false after.toList ++ ['\n'])))) := by
  have written := blocksText_stressed stress singleBefore singleInside singleAfter
  have single : '\n' ∉ blocksText .standard [stressed stress before inside after] := by
    have inMarker : '\n' ∉ stress.marker := by cases stress <;> decide
    simp only [written, List.mem_append, inMarker, false_or, not_or]
    exact ⟨(spells_escapeText true false _).single singleBefore,
      (spells_escapeMarkup false _).single singleInside,
      (spells_escapeMarkup false _).single singleAfter⟩
  have filled : blocksText .standard [stressed stress before inside after] ≠ [] := by
    have marked : stress.marker ≠ [] := by cases stress <;> decide
    simp [written, marked]
  have ends := List.getLast?_eq_some_getLast filled
  have apart : (blocksText .standard [stressed stress before inside after]).getLast filled ≠ '\n' :=
    fun newline => single (newline ▸ List.getLast_mem filled)
  rw [toText_of_getLast? ends apart, written]
  simp only [List.append_assoc]

/-- The runs of a stressed text are its two markers. Each of them is flanking just if it would be
between the texts as they are. -/
theorem delimiterRuns_toText (stress : Stress) (filled : inside ≠ "")
    (singleBefore : '\n' ∉ before.toList) (singleInside : '\n' ∉ inside.toList)
    (singleAfter : '\n' ∉ after.toList) :
    ∃ opening closing : DelimiterRun,
      delimiterRuns stress.delimiter
          (Markdown.toText .standard [stressed stress before inside after]).toList =
        [opening, closing] ∧
      opening.length = stress.length ∧ closing.length = stress.length ∧
      opening.isLeftFlanking = DelimiterRun.isLeftFlanking
        ⟨before.toList.getLast?, stress.length, inside.toList.head?⟩ ∧
      closing.isRightFlanking = DelimiterRun.isRightFlanking
        ⟨inside.toList.getLast?, stress.length, after.toList.head?⟩ := by
  have markup := stress.isMarkup_delimiter
  have headless : ∀ rest text : List Char, rest.head? ≠ some stress.delimiter →
      (escapeMarkup false text ++ rest).head? ≠ some stress.delimiter :=
    fun _ text behind => head?_escapeMarkup_ne markup stress.delimiter_ne behind false text
  have spellsBefore := spells_escapeText true false before.toList
  have spellsInside := spells_escapeMarkup false inside.toList
  have spellsAfter := spells_escapeMarkup false after.toList
  have closes : (escapeMarkup false after.toList ++ ['\n']).head? ≠ some stress.delimiter := by
    refine headless ['\n'] after.toList ?_
    cases stress <;> decide
  have written : escapeMarkup false inside.toList ≠ [] :=
    escapeMarkup_ne_nil false (by simpa using filled)
  have opens : (escapeMarkup false inside.toList ++ (stress.marker ++
      (escapeMarkup false after.toList ++ ['\n']))).head? =
        (escapeMarkup false inside.toList).head? := List.head?_append_of_ne_nil _ written
  have begins : (escapeMarkup false inside.toList).head? ≠ some stress.delimiter := by
    have alone := headless [] inside.toList (by simp)
    rwa [List.append_nil] at alone
  have ends : ((escapeMarkup false inside.toList).getLast?.or (some stress.delimiter)) =
      inside.toList.getLast? := by
    have filled : inside.toList ≠ [] := by simpa using filled
    rw [getLast?_escapeMarkup, List.getLast?_eq_some_getLast filled]
    rfl
  have noMore : runsFrom stress.delimiter 0
      ((escapeMarkup false after.toList).getLast?.or (some stress.delimiter)) ['\n'] = [] := by
    cases stress <;> rfl
  refine ⟨⟨(escapeText true false before.toList).getLast?, stress.length,
      (escapeMarkup false inside.toList).head?⟩,
    ⟨inside.toList.getLast?, stress.length,
      (escapeMarkup false after.toList ++ ['\n']).head?⟩, ?_, rfl, rfl, ?_, ?_⟩
  · rw [delimiterRuns, toText_stressed stress singleBefore singleInside singleAfter,
      spellsBefore.runsFrom markup, stress.runsFrom_marker (by rwa [opens]),
      spellsInside.runsFrom markup, stress.runsFrom_marker closes, spellsAfter.runsFrom markup,
      noMore, opens, ends, Option.or_none]
  · obtain ⟨space, punctuation⟩ := head?_escapeMarkup_alike false inside.toList
    simp only [DelimiterRun.isLeftFlanking, space, punctuation, spellsBefore.isBoundary_getLast?]
  · simp only [DelimiterRun.isRightFlanking, isBoundary_head?_escapeMarkup]

theorem delimiterRuns_toText_marked :
    "a[b]" ≠ "" ∧ '\n' ∉ " *".toList ∧ '\n' ∉ "a[b]".toList ∧ '\n' ∉ "!".toList ∧
      ∃ opening closing : DelimiterRun,
        delimiterRuns '~' (Markdown.toText .standard [stressed .delete " *" "a[b]" "!"]).toList =
          [opening, closing] ∧
        opening.length = 2 ∧ closing.length = 2 ∧ opening.isLeftFlanking ∧
          closing.isRightFlanking := by
  have filled : "a[b]" ≠ "" := by decide
  have singleBefore : '\n' ∉ " *".toList := by decide
  have singleInside : '\n' ∉ "a[b]".toList := by decide
  have singleAfter : '\n' ∉ "!".toList := by decide
  obtain ⟨opening, closing, runs, opened, closed, opens, closes⟩ :=
    delimiterRuns_toText .delete filled singleBefore singleInside singleAfter
  exact ⟨filled, singleBefore, singleInside, singleAfter, opening, closing, runs, opened, closed,
    opens.trans (by decide), closes.trans (by decide)⟩

/-- A blank before the closing marker leaves it without effect, and so does a full stop before it if
a letter follows. -/
theorem delimiters_without_effect :
    (Markdown.toText .standard [stressed .strong "" "a " ""] = "**a **\n" ∧
        delimiterRuns '*' "**a **\n".toList =
          [⟨none, 2, some 'a'⟩, ⟨some ' ', 2, some '\n'⟩] ∧
        DelimiterRun.isRightFlanking ⟨some ' ', 2, some '\n'⟩ = false) ∧
      (Markdown.toText .standard [stressed .strong "" "a." "b"] = "**a.**b\n" ∧
        delimiterRuns '*' "**a.**b\n".toList =
          [⟨none, 2, some 'a'⟩, ⟨some '.', 2, some 'b'⟩] ∧
        DelimiterRun.isRightFlanking ⟨some '.', 2, some 'b'⟩ = false) ∧
      ¬∀ (stress : Stress) (before inside after : String), inside ≠ "" →
        '\n' ∉ before.toList → '\n' ∉ inside.toList → '\n' ∉ after.toList →
          ∃ opening closing : DelimiterRun,
            delimiterRuns stress.delimiter
                (Markdown.toText .standard [stressed stress before inside after]).toList =
              [opening, closing] ∧
            opening.isLeftFlanking ∧ closing.isRightFlanking := by
  have written : Markdown.toText .standard [stressed .strong "" "a " ""] = "**a **\n" := by
    decide +kernel
  have runs : delimiterRuns '*' "**a **\n".toList =
      [⟨none, 2, some 'a'⟩, ⟨some ' ', 2, some '\n'⟩] := by decide
  refine ⟨⟨written, runs, by decide⟩, ⟨by decide +kernel, by decide, by decide⟩, ?_⟩
  intro effective
  obtain ⟨opening, closing, found, -, closes⟩ :=
    effective .strong "" "a " "" (by decide) (by decide) (by decide) (by decide)
  rw [written] at found
  obtain ⟨rfl, rfl⟩ : opening = ⟨none, 2, some 'a'⟩ ∧ closing = ⟨some ' ', 2, some '\n'⟩ := by
    simpa using found.symm.trans runs
  revert closes
  decide

end EditorMarkdown.Writer
