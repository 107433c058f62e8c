import EditorMarkdown.Proofs.Writer.Overflow

/-!
The text of a tree is composed of the texts of its parts. Without handlers, what a run of blocks is
written as does not depend on what is written before it or on the container around it, so a
container only lays out the text of its blocks.
-/

namespace EditorMarkdown.Writer

open Markdown (Node)

def blocksText (options : Options) (blocks : List Node) : List Char :=
  (writeBlocks options ⟨[]⟩ false none blocks .empty).text

/-- Blocks are written one part after the other; the last block of the first part counts as the
block before the second part. -/
theorem writeBlocks_append (options : Options) (scope : Scope) (tight : Bool) :
    ∀ (previous : Option Node) (before after : List Node) (buffer : Buffer),
      writeBlocks options scope tight previous (before ++ after) buffer =
        writeBlocks options scope tight (before.getLast?.or previous) after
          (writeBlocks options scope tight previous before buffer)
  | _, [], _, _ => by simp [writeBlocks]
  | previous, node :: rest, after, buffer => by
      rw [List.cons_append, writeBlocks, writeBlocks_append options scope tight (some node) rest,
        writeBlocks]
      cases rest with
      | nil => rfl
      | cons next others =>
          simp [List.getLast?_eq_some_getLast]

/-- A block that does not continue a list is written like a first block, behind a blank line. -/
theorem writeBlocks_some (options : Options) (scope : Scope) {last next : Node}
    (separate : continuesList (some last) next = false) (rest : List Node) (buffer : Buffer) :
    writeBlocks options scope false (some last) (next :: rest) buffer =
      writeBlocks options scope false none (next :: rest) (buffer.push ['\n', '\n']) := by
  have blank : separator false (some last) next = ['\n', '\n'] := by
    cases next <;> rfl
  have first : continuesList none next = false := rfl
  rw [writeBlocks, writeBlocks, separate, first, blank, separator, Buffer.push_nil]

theorem text_writeBlocks {options : Options} (bare : options.handlers = []) {scope : Scope}
    (top : scope.Agrees ⟨[]⟩) {lead : List Char} (inert : IsInert lead) (blocks : List Node) :
    (writeBlocks options scope false none blocks ⟨lead, true⟩).text =
      lead ++ blocksText options blocks := by
  have shifted : (⟨lead, true⟩ : Buffer) = Buffer.empty.after lead := by
    simp [Buffer.after, Buffer.empty]
  rw [shifted, writeBlocks_after options inert, writeBlocks_agrees bare false none blocks top,
    Buffer.text_after, blocksText]

theorem text_writeBlocks_empty {options : Options} (bare : options.handlers = []) {scope : Scope}
    (top : scope.Agrees ⟨[]⟩) (blocks : List Node) :
    (writeBlocks options scope false none blocks .empty).text = blocksText options blocks :=
  text_writeBlocks bare top isInert_nil blocks

theorem blocksText_append {options : Options} (bare : options.handlers = [])
    {before after : List Node} (filled : before ≠ []) (continued : after ≠ [])
    (separate : ∀ last ∈ before.getLast?, ∀ next ∈ after.head?,
      continuesList (some last) next = false) :
    blocksText options (before ++ after) =
      blocksText options before ++ ['\n', '\n'] ++ blocksText options after := by
  have isLast : before.getLast? = some (before.getLast filled) :=
    List.getLast?_eq_some_getLast filled
  obtain ⟨next, rest, rfl⟩ := List.exists_cons_of_ne_nil continued
  have apart := separate _ isLast next rfl
  rw [blocksText, writeBlocks_append, isLast, Option.some_or, writeBlocks_some options _ apart]
  have opened : ∀ buffer : Buffer,
      buffer.push ['\n', '\n'] = ⟨(buffer.text ++ ['\n']) ++ ['\n'], true⟩ := by
    intro buffer
    simp [Buffer.push]
  rw [opened, text_writeBlocks bare ⟨rfl, rfl⟩ (isInert_append_newline _)]
  simp [blocksText]

theorem blocksText_singleton (options : Options) (node : Node) :
    blocksText options [node] = (writeNode options ⟨[]⟩ false node .empty).text := by
  have first : continuesList none node = false := rfl
  rw [blocksText, writeBlocks, writeBlocks, first, separator, Buffer.push_nil]

theorem blocksText_blockquote {options : Options} (bare : options.handlers = [])
    (blocks : List Node) :
    blocksText options [.blockquote blocks] = quoteText (blocksText options blocks) := by
  have top : (Scope.enter .blockquote ⟨[]⟩).Agrees ⟨[]⟩ := ⟨rfl, rfl⟩
  rw [blocksText_singleton]
  simp only [writeNode, handled?_of_bare bare, Buffer.text_push, ite_self]
  rw [text_writeBlocks_empty bare top]
  rfl

theorem blocksText_spread_list {options : Options} (bare : options.handlers = [])
    (ordered : Bool) (start : Option UInt32) (itemSpread : Bool) (checked : Option Bool)
    (blocks : List Node) :
    blocksText options [.list ordered start true [.listItem itemSpread checked blocks]] =
      itemText (options.marker ordered false (firstNumber start)) checked
        (blocksText options blocks) := by
  have top : (Scope.enter .listItem (Scope.enter .list ⟨[]⟩)).Agrees ⟨[]⟩ := ⟨rfl, rfl⟩
  rw [blocksText_singleton]
  simp only [writeNode, writeItems, handled?_of_bare bare, Buffer.text_push, ite_self,
    Bool.not_true, Bool.false_and, Bool.false_eq_true, if_false]
  rw [text_writeBlocks_empty bare top]
  rfl

/-! Front matter is written before the blocks. -/

/-- The front matter of a text as it is written; nothing if there is none. -/
def Options.frontText (options : Options) : List Char :=
  (options.frontMatter.map frontMatterText).getD []

theorem Options.frontText_eq_nil_or (options : Options) :
    options.frontText = [] ∨ ∃ lead, options.frontText = lead ++ ['\n'] := by
  cases found : options.frontMatter with
  | none =>
      left
      simp [frontText, found]
  | some value =>
      simp only [frontText, found, Option.map_some, Option.getD_some, frontMatterText]
      split
      · left
        rfl
      · right
        refine ⟨['-', '-', '-', '\n'] ++ Text.trimEndWhile (· = '\n') value.toList ++
          ['\n', '-', '-', '-', '\n'], ?_⟩
        simp

theorem Options.isInert_frontText (options : Options) : IsInert options.frontText := by
  rcases options.frontText_eq_nil_or with empty | ⟨lead, equality⟩
  · rw [empty]
    exact isInert_nil
  · rw [equality]
    exact isInert_append_newline lead

theorem Options.push_frontText (options : Options) :
    Buffer.empty.push options.frontText = ⟨options.frontText, true⟩ := by
  rcases options.frontText_eq_nil_or with empty | ⟨lead, equality⟩
  · rw [empty]
    rfl
  · rw [equality]
    simp [Buffer.push, Buffer.empty]

theorem finishLine_eq (text : List Char) :
    finishLine text =
      if text ≠ [] ∧ text.getLast? ≠ some '\n' then text ++ ['\n'] else text := by
  cases found : text.getLast? with
  | none => simp [finishLine, List.getLast?_eq_none_iff.1 found]
  | some c =>
      have filled : text ≠ [] := by
        rintro rfl
        simp at found
      by_cases newline : c = '\n'
      · simp [finishLine, found, newline]
      · simp [finishLine, found, newline, filled]

theorem rootText_eq {options : Options} (bare : options.handlers = []) (children : List Node) :
    rootText options children =
      finishLine (options.frontText ++ blocksText options children) := by
  have top : (⟨[.root]⟩ : Scope).Agrees ⟨[]⟩ := ⟨rfl, rfl⟩
  rw [rootText, ← Options.frontText, options.push_frontText,
    text_writeBlocks bare top options.isInert_frontText]

/-! Runs of the writer. -/

/-- What a run writes blocks as on their own. -/
def blocksWritten (sums : Sums) (options : Options) (blocks : List Node) :
    Except Fault (List Char) :=
  (runBlocks sums options ⟨[]⟩ false none blocks .empty).map (·.text)

theorem blocksWritten_eq {options : Options} (bare : options.handlers = []) (sums : Sums)
    (blocks : List Node) :
    blocksWritten sums options blocks =
      sums.guard (blocks.any (nodeOverflows options ⟨[]⟩ false)) (blocksText options blocks) := by
  rw [blocksWritten, runBlocks, Sums.map_guard, blocksOverflow_of_bare bare]
  rfl

theorem blocksWritten_eq_ok_iff {options : Options} (bare : options.handlers = []) (sums : Sums)
    (blocks : List Node) :
    blocksWritten sums options blocks = .ok (blocksText options blocks) ↔
      ¬(sums = .checked ∧ NumbersRunOut options blocks) := by
  rw [blocksWritten_eq bare, Sums.guard_eq_ok_iff, ← blocksOverflow_of_bare bare ⟨[]⟩ none,
    blocksOverflow_iff_of_bare bare, and_iff_right rfl]

theorem nodeOverflows_blockquote {options : Options} (bare : options.handlers = [])
    (blocks : List Node) :
    nodeOverflows options ⟨[]⟩ false (.blockquote blocks) =
      blocks.any (nodeOverflows options ⟨[]⟩ false) := by
  rw [← blocksOverflow_of_bare bare (Scope.enter .blockquote ⟨[]⟩) none]
  simp only [nodeOverflows, handled?_of_bare bare, ite_self]

/-- The number behind a single item does not fit if the number of the item is the greatest. -/
theorem nodeOverflows_single {options : Options} (bare : options.handlers = [])
    (ordered : Bool) (start : Option UInt32) (spread itemSpread : Bool) (checked : Option Bool)
    (blocks : List Node) :
    nodeOverflows options ⟨[]⟩ false
        (.list ordered start spread [.listItem itemSpread checked blocks]) =
      (options.counts ordered && firstNumber start = greatestNumber ||
        blocks.any (nodeOverflows options ⟨[]⟩ false)) := by
  rw [← blocksOverflow_of_bare bare (Scope.enter .listItem (Scope.enter .list ⟨[]⟩)) none]
  simp only [nodeOverflows, handled?_of_bare bare, ite_self, itemsOverflow, Bool.or_false]
  rfl

theorem firstNumber_eq_greatestNumber_iff {start : Option UInt32} :
    firstNumber start = greatestNumber ↔ start = some greatestNumber := by
  cases start with
  | none => decide
  | some number => simp [firstNumber]

/-- Runs put the text of a tree together from the texts of its parts: parts that follow each other
have a blank line between them, quotes and list items lay out the lines of what they hold, and front
matter stands before all blocks. If sums are checked, a list stops the run whose numbers run out. -/
theorem text_compositional (sums : Sums) (options : Options) (bare : options.handlers = []) :
    (∀ blocks : List Node,
      blocksWritten sums options blocks = .ok (blocksText options blocks) ↔
        ¬(sums = .checked ∧ NumbersRunOut options blocks)) ∧
    (∀ before after : List Node, before ≠ [] → after ≠ [] →
      (∀ last ∈ before.getLast?, ∀ next ∈ after.head?, continuesList (some last) next = false) →
      blocksWritten sums options (before ++ after) =
        (blocksWritten sums options before).bind fun first =>
          (blocksWritten sums options after).map fun second => first ++ ['\n', '\n'] ++ second) ∧
    (∀ blocks : List Node,
      blocksWritten sums options [.blockquote blocks] =
        (blocksWritten sums options blocks).map (Text.prefixLines ['>', ' '] ['>'])) ∧
    (∀ (ordered : Bool) (start : Option UInt32) (itemSpread : Bool) (blocks : List Node),
      let marker := options.marker ordered false (firstNumber start)
      blocksWritten sums options [.list ordered start true [.listItem itemSpread none blocks]] =
        if sums = .checked ∧ ordered ∧ options.increment ∧ start = some greatestNumber then
          .error .overflow
        else
          (blocksWritten sums options blocks).map fun text =>
            marker ++ Text.indentLines (List.replicate (markerWidth marker) ' ') text) ∧
    (∀ children : List Node,
      (Markdown.write sums options children).map String.toList =
        (blocksWritten sums options children).map fun text =>
          let whole := (options.frontMatter.map frontMatterText).getD [] ++ text
          if whole ≠ [] ∧ whole.getLast? ≠ some '\n' then whole ++ ['\n'] else whole) := by
  refine ⟨blocksWritten_eq_ok_iff bare sums, ?_, ?_, ?_, ?_⟩
  · intro before after filled continued separate
    simp only [blocksWritten_eq bare, blocksText_append bare filled continued separate,
      List.any_append]
    exact sums.guard_or _ _ _ _ fun first second => first ++ ['\n', '\n'] ++ second
  · intro blocks
    rw [blocksWritten_eq bare, blocksWritten_eq bare, Sums.map_guard, blocksText_blockquote bare,
      List.any_cons, List.any_nil, Bool.or_false, nodeOverflows_blockquote bare]
    rfl
  · intro ordered start itemSpread blocks marker
    have last : (options.counts ordered && firstNumber start = greatestNumber) = true ↔
        ordered ∧ options.increment ∧ start = some greatestNumber := by
      simp [Options.counts, firstNumber_eq_greatestNumber_iff, and_assoc]
    rw [blocksWritten_eq bare, blocksWritten_eq bare, Sums.map_guard, blocksText_spread_list bare,
      itemText, taskBox, List.append_nil, List.any_cons, List.any_nil, Bool.or_false,
      nodeOverflows_single bare]
    split
    · next stops =>
        rw [stops.1, last.2 stops.2]
        rfl
    · next goesOn =>
        cases sums with
        | wrapping => simp [marker]
        | checked => rw [Bool.eq_false_iff.2 (mt last.1 (goesOn ⟨rfl, ·⟩)), Bool.false_or]
  · intro children
    rw [Markdown.write_eq, blocksWritten_eq bare, Sums.map_guard, Sums.map_guard,
      blocksOverflow_of_bare bare, Markdown.toText, String.toList_ofList, rootText_eq bare,
      finishLine_eq]
    rfl

theorem text_compositional_lists :
    Options.standard.handlers = [] ∧
      continuesList (some (.list false none false [.listItem false none [.html "a!"]]))
        (.list true (some 7) false [.listItem false none [.link "u" none []]]) = false ∧
      blocksWritten .checked .standard
          ([.list false none false [.listItem false none [.html "a!"]]] ++
            [.list true (some 7) false [.listItem false none [.link "u" none []]]]) =
        .ok ("- a!".toList ++ ['\n', '\n'] ++ "7. [](u)".toList) := by
  refine ⟨rfl, rfl, ?_⟩
  have parts := (text_compositional .checked .standard rfl).2.1
    [.list false none false [.listItem false none [.html "a!"]]]
    [.list true (some 7) false [.listItem false none [.link "u" none []]]]
    (by simp) (by simp) (by simp [continuesList])
  rw [parts]
  rfl

end EditorMarkdown.Writer
