import EditorMarkdown.Proofs.Writer.Place
import EditorMarkdown.Proofs.Writer.Escapes
import EditorMarkdown.Source.Link
import Mathlib.Data.List.Basic

/-!
The tails of links as readers see them: a destination, bare or in angle brackets, and a title in
quotation marks, with escapes and references resolved. The writer protects the references of both
and escapes a title as a whole, but it leaves the backslashes of a destination as they are, and
those that stand before punctuation are lost.
-/

namespace EditorMarkdown.Writer

open Markdown (Node)
open Text (isAsciiPunctuation isBlank isWhite)

variable {text written rest : List Char} {c : Char}

/-! Destinations. -/

def isControl (c : Char) : Bool := c.toNat < 0x20 || c.toNat = 0x7F

def angleStep (depth : Nat) (c : Char) : Option Nat :=
  if c = '<' || c = '>' || c = '\n' || c = '\r' then none else some depth

/-- A bare destination goes on to a space, a control character, or a parenthesis that was not opened
in it. -/
def bareStep (depth : Nat) (c : Char) : Option Nat :=
  if isControl c || c = ' ' then none
  else if c = '(' then some (depth + 1)
  else if c = ')' then if depth = 0 then none else some (depth - 1)
  else some depth

def readDestination : List Char → Option (List Char × List Char)
  | '<' :: rest =>
      let scanned := scan angleStep 0 rest
      match scanned.rest with
      | '>' :: after => some (resolve scanned.raw, after)
      | _ => none
  | text =>
      let scanned := scan bareStep 0 text
      if scanned.depth = 0 then some (resolve scanned.raw, scanned.rest) else none

/-! Titles. -/

/-- How far a line has been read: past a character of it, past the carriage return before it, past
its start and no more than blanks, or past a blank line before it. -/
inductive LineState where
  | text
  | returned
  | fresh
  | blank
  deriving DecidableEq, Repr

def LineState.step : LineState → Char → LineState
  | .blank, _ => .blank
  | .text, c => if c = '\n' then .fresh else if c = '\r' then .returned else .text
  | .returned, c =>
      if c = '\n' then .fresh else if c = '\r' then .blank
      else if isBlank c then .fresh else .text
  | .fresh, c =>
      if c = '\n' || c = '\r' then .blank else if isBlank c then .fresh else .text

/-- Whether a blank line stands between two lines of a text. -/
def holdsBlankLine (text : List Char) : Bool := text.foldl LineState.step .text = .blank

/-- A title goes on to the character that closes it. Parentheses are not opened in one. -/
def titleStep (opening closing : Char) (depth : Nat) (c : Char) : Option Nat :=
  if c = opening || c = closing then none else some depth

def readTitle : List Char → Option (List Char × List Char)
  | [] => none
  | opening :: rest =>
      (Source.titleEnd? opening).bind fun closing =>
        let scanned := scan (titleStep opening closing) 0 rest
        if scanned.rest.head? = some closing && !holdsBlankLine scanned.raw then
          some (resolve scanned.raw, scanned.rest.drop 1)
        else none

/-! Tails. -/

/-- A text without the blanks at its start and one end of a line among them. -/
def skipGap (text : List Char) : List Char :=
  match text.dropWhile isBlank with
  | '\r' :: '\n' :: rest | '\n' :: rest | '\r' :: rest => rest.dropWhile isBlank
  | rest => rest

def readAfter (text : List Char) : Option (Option (List Char)) :=
  let next := skipGap text
  if next = [')'] then some none
  else if next = text then none
  else (readTitle next).bind fun (title, rest) => if skipGap rest = [')'] then some title else none

/-- The destination and the title of a link, read from the bracket that closes its text to the
parenthesis at its end. -/
def readTail : List Char → Option (List Char × Option (List Char))
  | ']' :: '(' :: rest =>
      (readDestination (skipGap rest)).bind fun (url, after) =>
        (readAfter after).map fun title => (url, title)
  | _ => none

example : readTail "](</a b> 't(\\'&amp;'\t)".toList =
    some ("/a b".toList, some "t('&".toList) := by decide +kernel

/-! Titles as they are written. -/

theorem LineState.step_of_isAsciiPunctuation (punctuation : isAsciiPunctuation c)
    (state : LineState) : state.step c = if state = .blank then .blank else .text := by
  have newline : c ≠ '\n' := by
    rintro rfl
    cases punctuation
  have returned : c ≠ '\r' := by
    rintro rfl
    cases punctuation
  have solid := isBlank_of_isAsciiPunctuation punctuation
  cases state <;> simp [LineState.step, newline, returned, solid]

theorem Escapes.foldl_step_eq {passes : Char → Prop} {next : Char}
    (escapes : Escapes passes next text written) (state : LineState) :
    written.foldl LineState.step state = text.foldl LineState.step state := by
  induction escapes generalizing state with
  | nil => rfl
  | bare apart passed alone others induction => exact induction _
  | backslash kept others induction => exact induction _
  | @escaped c text written punctuation others induction =>
      have within : (state.step '\\').step c = state.step c := by
        rw [LineState.step_of_isAsciiPunctuation punctuation,
          LineState.step_of_isAsciiPunctuation punctuation,
          LineState.step_of_isAsciiPunctuation (by decide)]
        cases state <;> rfl
      rw [List.foldl_cons, List.foldl_cons, List.foldl_cons, within, induction]

/-- A title with its backslashes and quotation marks escaped. -/
def quoted (text : List Char) : List Char :=
  text.flatMap fun c => if c = '\\' || c = '"' then ['\\', c] else [c]

theorem escapes_quoted (text : List Char) :
    Escapes (· ≠ '"') '"' text (escapeReferences (quoted text)) := by
  induction text with
  | nil => exact .nil
  | cons c text induction =>
      by_cases special : c = '\\' ∨ c = '"'
      · have whole : quoted (c :: text) = '\\' :: c :: quoted text := by simp [quoted, special]
        have ampersand : c ≠ '&' := by rcases special with rfl | rfl <;> decide
        have punctuation : isAsciiPunctuation c := by rcases special with rfl | rfl <;> rfl
        rw [whole, escapeReferences_cons (by simp),
          escapeReferences_cons fun same => absurd same ampersand]
        exact .escaped punctuation induction
      · have whole : quoted (c :: text) = c :: quoted text := by simp [quoted, special]
        rw [whole]
        exact induction.cons_escapeReferences (not_or.1 special).1 (not_or.1 special).2

theorem readTitle_quoted (text rest : List Char) :
    readTitle ('"' :: (escapeReferences (quoted text) ++ '"' :: rest)) =
      if holdsBlankLine text then none else some (text, rest) := by
  have escapes := escapes_quoted text
  have goes : ∀ c, c ≠ '"' → titleStep '"' '"' 0 c = some 0 := by
    intro c apart
    simp [titleStep, apart]
  have scanned : scan (titleStep '"' '"') 0 (escapeReferences (quoted text) ++ '"' :: rest) =
      ⟨escapeReferences (quoted text), 0, '"' :: rest⟩ := by
    rw [escapes.scan_eq goes, scan_stop (by decide) rfl, Scanned.behind, List.append_nil]
  have closing : Source.titleEnd? '"' = some '"' := rfl
  have blank : holdsBlankLine (escapeReferences (quoted text)) = holdsBlankLine text := by
    rw [holdsBlankLine, escapes.foldl_step_eq, ← holdsBlankLine]
  rw [readTitle, closing, Option.bind_some, scanned]
  simp only [blank, escapes.resolve_eq]
  cases holdsBlankLine text <;> rfl

theorem skipGap_close : skipGap [')'] = [')'] := rfl

theorem title_some (text : String) : title (some text) ++ [')'] =
    ' ' :: '"' :: (escapeReferences (quoted text.toList) ++ ['"', ')']) := by
  simp [title, quoted]

theorem skipGap_title (text : String) : skipGap (title (some text) ++ [')']) =
    '"' :: (escapeReferences (quoted text.toList) ++ ['"', ')']) := by
  rw [title_some]
  rfl

theorem readAfter_title (linkTitle : Option String) :
    readAfter (title linkTitle ++ [')']) =
      if ∀ text ∈ linkTitle, holdsBlankLine text.toList = false then
        some (linkTitle.map String.toList) else none := by
  cases linkTitle with
  | none => simp [title, readAfter, skipGap_close]
  | some text =>
      rw [readAfter, skipGap_title, title_some, readTitle_quoted]
      cases blank : holdsBlankLine text.toList <;> simp [blank, skipGap_close]

/-! Destinations as they are written. -/

def IsPlain (url : String) : Prop := ∀ c ∈ url.toList, isControl c = false ∧ c ≠ '<' ∧ c ≠ '>'

instance (url : String) : Decidable (IsPlain url) := List.decidableBAll _ url.toList

def isAngled (url : String) : Bool := url.toList.any fun c => isWhite c || c = '(' || c = ')'

def follower (url : String) (linkTitle : Option String) : Char :=
  if isAngled url then '>' else if linkTitle.isSome then ' ' else ')'

variable {url : String}

theorem destination_eq (plain : IsPlain url) :
    destination url =
      if isAngled url then '<' :: (escapeReferences url.toList ++ ['>'])
      else escapeReferences url.toList := by
  have angled : ((escapeReferences url.toList).any fun c => isWhite c || c = '(' || c = ')') =
      isAngled url := by
    refine Bool.eq_iff_iff.2 ?_
    simp only [isAngled, List.any_eq_true]
    refine exists_congr fun c => and_congr_left fun holds => mem_escapeReferences ?_
    rintro rfl
    cases holds
  have kept : (escapeReferences url.toList).flatMap (fun c =>
      if c = '<' then ['%', '3', 'C'] else if c = '>' then ['%', '3', 'E'] else [c]) =
        escapeReferences url.toList := by
    refine (List.flatMap_congr fun c member => ?_).trans (List.flatMap_singleton' _)
    by_cases backslash : c = '\\'
    · rw [backslash]
      rfl
    · have written := plain c ((mem_escapeReferences backslash).1 member)
      rw [if_neg written.2.1, if_neg written.2.2]
  rw [destination]
  simp only [angled, kept, List.cons_append]

theorem readDestination_bare (starts : text.head? ≠ some '<') :
    readDestination text =
      if (scan bareStep 0 text).depth = 0 then
        some (resolve (scan bareStep 0 text).raw, (scan bareStep 0 text).rest)
      else none := by
  rw [readDestination]
  rintro rest rfl
  exact starts rfl

theorem bareStep_of_bare (plain : IsPlain url) (bare : isAngled url = false) :
    ∀ c ∈ url.toList, c ≠ '\\' → bareStep 0 c = some 0 := by
  intro c member _
  obtain ⟨solid, -⟩ := plain c member
  have unmarked := List.any_eq_false.1 bare c member
  simp only [Bool.or_eq_true, decide_eq_true_eq, not_or] at unmarked
  have space : c ≠ ' ' := by
    rintro rfl
    exact unmarked.1.1 rfl
  simp [bareStep, solid, space, unmarked.1.2, unmarked.2]

theorem angleStep_close : angleStep 0 '>' = none := rfl

theorem angleStep_of_plain (plain : IsPlain url) :
    ∀ c ∈ url.toList, c ≠ '\\' → angleStep 0 c = some 0 := by
  intro c member _
  obtain ⟨solid, opening, closing⟩ := plain c member
  have single : c ≠ '\n' ∧ c ≠ '\r' := by
    constructor <;> (rintro rfl; cases solid)
  simp [angleStep, opening, closing, single]

theorem title_eq_cons (bare : isAngled url = false) (linkTitle : Option String) :
    ∃ rest, title linkTitle ++ [')'] = follower url linkTitle :: rest ∧
      (linkTitle = none → rest = []) := by
  rw [follower, if_neg (by simp [bare])]
  cases linkTitle with
  | none => exact ⟨[], rfl, fun _ => rfl⟩
  | some text =>
      refine ⟨('"' :: escapeReferences (quoted text.toList) ++ ['"']) ++ [')'], rfl, ?_⟩
      exact fun absent => nomatch absent

theorem follower_apart (url : String) (linkTitle : Option String) :
    isReferenceChar (follower url linkTitle) = false ∧
      follower url linkTitle ∉ ['&', ';', '\\', '<'] ∧
      (isAngled url = false → bareStep 0 (follower url linkTitle) = none) := by
  unfold follower
  cases isAngled url <;> cases linkTitle.isSome <;> decide

theorem head?_bare (plain : IsPlain url) {next : Char} (apart : next ≠ '<') (rest : List Char) :
    (escapeReferences url.toList ++ next :: rest).head? ≠ some '<' := by
  cases written : escapeReferences url.toList with
  | nil => simpa using apart
  | cons c others =>
      intro first
      obtain rfl : c = '<' := by simpa using first
      have member : '<' ∈ escapeReferences url.toList := by simp [written]
      exact (plain '<' ((mem_escapeReferences (by decide)).1 member)).2.1 rfl

theorem readDestination_kept (plain : IsPlain url) {linkTitle : Option String}
    (kept : losesBackslash (url.toList ++ [follower url linkTitle]) = false) :
    readDestination (destination url ++ (title linkTitle ++ [')'])) =
      some (url.toList, title linkTitle ++ [')']) := by
  obtain ⟨outside, apart, ends⟩ := follower_apart url linkTitle
  simp only [List.mem_cons, List.not_mem_nil, or_false, not_or] at apart
  rw [destination_eq plain]
  cases angled : isAngled url with
  | true =>
      have closing : follower url linkTitle = '>' := if_pos angled
      obtain ⟨scanned, resolved⟩ := scan_kept angleStep_close (by decide) (by decide)
        (angleStep_of_plain plain) (by decide) (closing ▸ kept) (title linkTitle ++ [')'])
      rw [if_pos rfl, List.cons_append, List.append_assoc, List.singleton_append, readDestination]
      simp only [scanned, resolved]
  | false =>
      obtain ⟨rest, behind, -⟩ := title_eq_cons angled linkTitle
      obtain ⟨scanned, resolved⟩ := scan_kept (ends angled) outside (by simp [apart])
        (bareStep_of_bare plain angled) apart.2.2.1 kept rest
      rw [if_neg Bool.false_ne_true, behind,
        readDestination_bare (head?_bare plain apart.2.2.2 rest), scanned]
      simp only [resolved, if_pos]

theorem readDestination_lost (plain : IsPlain url) {linkTitle : Option String}
    (lost : losesBackslash (url.toList ++ [follower url linkTitle])) {read after : List Char}
    (found : readDestination (destination url ++ (title linkTitle ++ [')'])) = some (read, after)) :
    read ≠ url.toList ∨ after = [] := by
  obtain ⟨outside, apart, ends⟩ := follower_apart url linkTitle
  simp only [List.mem_cons, List.not_mem_nil, or_false, not_or] at apart
  rw [destination_eq plain] at found
  cases angled : isAngled url with
  | true =>
      have closing : follower url linkTitle = '>' := if_pos angled
      rw [angled, if_pos rfl, List.cons_append, List.append_assoc, List.singleton_append,
        readDestination] at found
      left
      rcases scan_lost angleStep_close (by decide) (by decide)
        (angleStep_of_plain plain) (by decide) (closing ▸ lost) (title linkTitle ++ [')'])
        with ⟨scanned, other⟩ | ⟨-, scanned⟩
      · simp only [scanned, Option.some_inj, Prod.mk.injEq] at found
        rw [← found.1]
        exact other
      · simp only [scanned] at found
        split at found
        · cases found
          have inside : '>' ∈ resolve ((scan angleStep 0 (title linkTitle ++ [')'])).behind
              (escapeReferences url.toList ++ ['>'])).raw := by
            refine mem_resolveFrom (by decide) (by decide) ?_
            simp [Scanned.behind]
          intro same
          rw [same] at inside
          exact (plain '>' inside).2.2 rfl
        · cases found
  | false =>
      obtain ⟨rest, behind, alone⟩ := title_eq_cons angled linkTitle
      rw [angled, if_neg Bool.false_ne_true, behind,
        readDestination_bare (head?_bare plain apart.2.2.2 rest)] at found
      split at found
      · cases found
        rcases scan_lost (ends angled) outside (by simp [apart]) (bareStep_of_bare plain angled)
          apart.2.2.1 lost rest with ⟨scanned, other⟩ | ⟨punctuation, scanned⟩
        · left
          rw [scanned]
          exact other
        · right
          have untitled : linkTitle = none := by
            cases linkTitle with
            | none => rfl
            | some text =>
                rw [follower, if_neg (by simp [angled])] at punctuation
                cases punctuation
          rw [scanned, alone untitled]
          rfl
      · cases found

/-! Tails as they are written. -/

theorem skipGap_of_head? (solid : ∀ c ∈ text.head?, isBlank c = false ∧ c ≠ '\n' ∧ c ≠ '\r') :
    skipGap text = text := by
  cases text with
  | nil => rfl
  | cons c rest =>
      obtain ⟨blank, newline, returned⟩ := solid c rfl
      rw [skipGap, List.dropWhile_cons_of_neg (by simp [blank])]
      split
      · next same => exact absurd (List.cons.inj same).1 returned
      · next same => exact absurd (List.cons.inj same).1 newline
      · next same => exact absurd (List.cons.inj same).1 returned
      · rfl

theorem skipGap_destination (plain : IsPlain url) (filled : url ≠ "") (rest : List Char) :
    skipGap (destination url ++ rest) = destination url ++ rest := by
  rw [destination_eq plain]
  cases angled : isAngled url with
  | true => rfl
  | false =>
      have written : escapeReferences url.toList ≠ [] :=
        escapeReferences_ne_nil (by simpa using filled)
      obtain ⟨c, others, starts⟩ := List.exists_cons_of_ne_nil written
      rw [if_neg Bool.false_ne_true, starts]
      refine skipGap_of_head? fun d first => ?_
      cases first
      by_cases backslash : c = '\\'
      · subst backslash
        decide
      · have member : c ∈ url.toList := (mem_escapeReferences backslash).1 (by simp [starts])
        have goes := bareStep_of_bare plain angled c member backslash
        refine ⟨?_, ?_, ?_⟩
        · refine eq_false_of_ne_true fun blank => ?_
          rcases isBlank_iff.1 blank with rfl | rfl <;> cases goes
        · rintro rfl
          cases goes
        · rintro rfl
          cases goes

theorem readTail_linkTail (url : String) (linkTitle : Option String) :
    readTail (linkTail url linkTitle) =
      (readDestination (skipGap (destination url ++ (title linkTitle ++ [')'])))).bind fun read =>
        (readAfter read.2).map fun title => (read.1, title) := by
  rw [linkTail, List.cons_append, List.cons_append, List.cons_append, List.cons_append,
    List.append_assoc, readTail]

/-- A title without a destination is read as a destination. -/
theorem readTail_untargeted (text : String) (linkTitle : Option (List Char)) :
    readTail (linkTail "" (some text)) ≠ some ([], linkTitle) := by
  have empty : destination "" = [] := rfl
  rw [readTail_linkTail, empty, List.nil_append, skipGap_title, readDestination_bare (by simp),
    scan_bare (by decide) rfl]
  simp only [Scanned.behind, List.singleton_append, resolve_bare (c := '"') (by decide) (by simp)]
  split <;> simp

theorem readTail_linkTail_iff (plain : IsPlain url) (linkTitle : Option String) :
    readTail (linkTail url linkTitle) = some (url.toList, linkTitle.map String.toList) ↔
      losesBackslash (url.toList ++ [follower url linkTitle]) = false ∧
        (url = "" → linkTitle = none) ∧
        ∀ text ∈ linkTitle, holdsBlankLine text.toList = false := by
  by_cases addressed : url = "" → linkTitle = none
  · have skipped : skipGap (destination url ++ (title linkTitle ++ [')'])) =
        destination url ++ (title linkTitle ++ [')']) := by
      by_cases filled : url = ""
      · rw [addressed filled, filled]
        rfl
      · exact skipGap_destination plain filled _
    rw [readTail_linkTail, skipped]
    cases lost : losesBackslash (url.toList ++ [follower url linkTitle]) with
    | false =>
        rw [readDestination_kept plain lost, Option.bind_some, readAfter_title]
        split
        · next whole => exact iff_of_true rfl ⟨rfl, addressed, whole⟩
        · next broken => exact iff_of_false (fun read => nomatch read) fun kept => broken kept.2.2
    | true =>
        refine iff_of_false (fun read => ?_) (by simp)
        obtain ⟨⟨other, after⟩, found, titled⟩ := Option.bind_eq_some_iff.1 read
        obtain ⟨_, behind, same⟩ := Option.map_eq_some_iff.1 titled
        rcases readDestination_lost plain lost found with apart | rfl
        · exact apart (Prod.mk.inj same).1
        · cases behind
  · obtain ⟨rfl, titled⟩ := Classical.not_imp.1 addressed
    obtain ⟨text, rfl⟩ := Option.ne_none_iff_exists'.1 titled
    exact iff_of_false (readTail_untargeted text _) fun kept => addressed kept.2.1

/-- A link ends in a tail that is read as its destination and its title just if no backslash of the
destination stands before punctuation, no title stands without a destination, and no blank line
stands in the title. -/
theorem link_readTail_iff {options : Options} (unhandled : options.handler? .link = none)
    (scope : Scope) (children : List Node) (buffer : Buffer) :
    ∃ lead, ∀ (url : String) (linkTitle : Option String),
      (writeNode options scope false (.link url linkTitle children) buffer).text =
          lead ++ linkTail url linkTitle ∧
        (IsPlain url →
          (readTail (linkTail url linkTitle) = some (url.toList, linkTitle.map String.toList) ↔
            losesBackslash (url.toList ++ [follower url linkTitle]) = false ∧
              (url = "" → linkTitle = none) ∧
              ∀ text ∈ linkTitle, holdsBlankLine text.toList = false)) := by
  refine ⟨(writeInlines options (scope.enter .link) children (buffer.escapeBang.push ['['])).text,
    fun url linkTitle => ⟨?_, fun plain => readTail_linkTail_iff plain linkTitle⟩⟩
  have free : options.handled? scope (.link url linkTitle children) = none := by
    simp [Options.handled?, Markdown.Node.kind, unhandled]
  simp only [writeNode, free, ite_self, Buffer.text_push]

theorem link_readTail_iff_titled :
    Options.standard.handler? .link = none ∧ IsPlain "a\\b&amp;" ∧
      ∃ lead, (writeNode .standard ⟨[]⟩ false
          (.link "a\\b&amp;" (some "\"\\t&#9;") [.text "x"]) .empty).text =
        lead ++ linkTail "a\\b&amp;" (some "\"\\t&#9;") ∧
          readTail (linkTail "a\\b&amp;" (some "\"\\t&#9;")) =
            some ("a\\b&amp;".toList, some "\"\\t&#9;".toList) := by
  have unhandled : Options.standard.handler? .link = none := rfl
  have plain : IsPlain "a\\b&amp;" := by decide
  obtain ⟨lead, written⟩ := link_readTail_iff unhandled ⟨[]⟩ [.text "x"] .empty
  obtain ⟨ends, reads⟩ := written "a\\b&amp;" (some "\"\\t&#9;")
  refine ⟨unhandled, plain, lead, ends, (reads plain).2 ⟨by decide, by decide, ?_⟩⟩
  rintro text ⟨⟩
  decide

/-- A backslash before a star is lost, one at the end escapes the parenthesis, and a title becomes
the destination if there is no other. -/
theorem link_misread :
    (Markdown.toText .standard [.paragraph [.link "a\\*b" none [.text "x"]]] = "[x](a\\*b)\n" ∧
        readTail "](a\\*b)".toList = some ("a*b".toList, none)) ∧
      (Markdown.toText .standard [.paragraph [.link "a\\" none [.text "x"]]] = "[x](a\\)\n" ∧
        readTail "](a\\)".toList = none) ∧
      (Markdown.toText .standard [.paragraph [.link "" (some "t") [.text "x"]]] =
          "[x]( \"t\")\n" ∧
        readTail "]( \"t\")".toList = some ("\"t\"".toList, none)) ∧
      ¬∀ (url : String) (linkTitle : Option String), IsPlain url →
        (∀ text ∈ linkTitle, '\n' ∉ text.toList) →
          readTail (linkTail url linkTitle) =
            some (url.toList, linkTitle.map String.toList) := by
  refine ⟨⟨by decide +kernel, by decide⟩, ⟨by decide +kernel, by decide⟩,
    ⟨by decide +kernel, by decide⟩, ?_⟩
  intro invertible
  have reads := invertible "a\\*b" none (by decide) (fun _ absent => nomatch absent)
  revert reads
  decide

end EditorMarkdown.Writer
