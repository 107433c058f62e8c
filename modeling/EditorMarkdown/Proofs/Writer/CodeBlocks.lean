import EditorMarkdown.Event.Builder
import EditorMarkdown.Proofs.Text.Lines
import EditorMarkdown.Proofs.Writer.Interruption

/-!
Code blocks as readers see them. A fence of backticks opens the block, and the first line below it
that holds as many backticks closes it. The writer's fence is longer than any run of backticks in
the value, so no line of the value closes the block. A newline at the end of the value is taken for
the end of its last line, and is lost.
-/

namespace EditorMarkdown.Writer

open Markdown (Node)
open Text (splitLines joinLines dropFinalNewline isBlank)

variable {line text tail : List Char} {lines : List (List Char)} {length : Nat}

/-! Reading. -/

def fenceLength (line : List Char) : Nat := (line.takeWhile (· = '\x60')).length

/-- Whether a line closes a block with a fence of the given length: at most three spaces stand
before its backticks, and nothing but blanks behind them. -/
def closesFence (length : Nat) (line : List Char) : Bool :=
  let fence := line.dropWhile (· = ' ')
  (line.takeWhile (· = ' ')).length ≤ 3 && length ≤ fenceLength fence &&
    (fence.drop (fenceLength fence)).all isBlank

/-- The lines of a block, given all lines below the one that opens it. -/
def codeLines (length : Nat) (lines : List (List Char)) : List (List Char) :=
  lines.takeWhile fun line => !closesFence length line

/-- The value of the code block at the start of a text. -/
def readCode (text : List Char) : Option String :=
  match splitLines text with
  | [] => none
  | first :: lines =>
      if fenceLength first < 3 then none
      else
        let body := (codeLines (fenceLength first) lines).flatMap fun line => line ++ ['\n']
        some (Builder.stripNewline (String.ofList body))

/-! Fences. -/

theorem fenceLength_append (length : Nat) (stops : ∀ c ∈ tail.head?, c ≠ '\x60') :
    fenceLength (List.replicate length '\x60' ++ tail) = length := by
  have backticks : ∀ c ∈ List.replicate length '\x60', decide (c = '\x60') = true := by
    intro c member
    simp [List.eq_of_mem_replicate member]
  have spanned := Text.span_append backticks fun c member => decide_eq_false (stops c member)
  rw [fenceLength, spanned.1, List.length_replicate]

theorem closesFence_fence (filled : 0 < length) :
    closesFence length (List.replicate length '\x60') := by
  have whole : fenceLength (List.replicate length '\x60') = length := by
    have alone := fenceLength_append length (fun c (first : c ∈ [].head?) => nomatch first)
    rwa [List.append_nil] at alone
  obtain ⟨shorter, rfl⟩ := Nat.exists_eq_succ_of_ne_zero (Nat.ne_of_gt filled)
  have spaceless : (List.replicate (shorter + 1) '\x60').dropWhile (· = ' ') =
      List.replicate (shorter + 1) '\x60' := by
    simp [List.replicate_succ]
  have none : (List.replicate (shorter + 1) '\x60').takeWhile (· = ' ') = [] := by
    simp [List.replicate_succ]
  simp [closesFence, spaceless, none, whole]

theorem infix_of_closesFence (closes : closesFence length line) :
    List.replicate length '\x60' <:+: line := by
  simp only [closesFence, Bool.and_eq_true, decide_eq_true_eq] at closes
  obtain ⟨⟨-, enough⟩, -⟩ := closes
  generalize fenced : line.dropWhile (· = ' ') = fence at enough
  have behind : fence <:+ line := fenced ▸ List.dropWhile_suffix _
  have run : fence.takeWhile (· = '\x60') = List.replicate (fenceLength fence) '\x60' := by
    refine List.eq_replicate_iff.2 ⟨rfl, fun c member => ?_⟩
    exact of_decide_eq_true (List.mem_takeWhile_imp (p := fun c => decide (c = '\x60')) member)
  have shorter : List.replicate length '\x60' <+: fence.takeWhile (· = '\x60') := by
    refine ⟨List.replicate (fenceLength fence - length) '\x60', ?_⟩
    rw [run, List.replicate_append_replicate, Nat.add_sub_cancel' enough]
  exact (shorter.trans (List.takeWhile_prefix _)).isInfix.trans behind.isInfix

theorem codeLines_append (inside : ∀ line ∈ lines, closesFence length line = false)
    (rest : List (List Char)) : codeLines length (lines ++ rest) = lines ++ codeLines length rest :=
  List.takeWhile_append_of_pos fun line member => by simp [inside line member]

theorem codeLines_fence (filled : 0 < length) (behind : ∀ c ∈ tail.head?, c = '\n') :
    codeLines length (splitLines (List.replicate length '\x60' ++ tail)) = [] := by
  have single : '\n' ∉ List.replicate length '\x60' := by
    intro member
    cases List.eq_of_mem_replicate member
  obtain ⟨others, split⟩ : ∃ others, splitLines (List.replicate length '\x60' ++ tail) =
      List.replicate length '\x60' :: others := by
    cases tail with
    | nil => exact ⟨[], by rw [List.append_nil, Text.splitLines_of_not_mem single]⟩
    | cons c rest =>
        obtain rfl := behind c rfl
        exact ⟨_, Text.splitLines_append_newline single rest⟩
  rw [split, codeLines, List.takeWhile_cons, closesFence_fence filled]
  rfl

/-! What is written. -/

def fenceAround (value : List Char) : Nat := max 3 (longestBacktickRun value + 1)

theorem closesFence_of_mem {value : List Char} (part : text <+: value)
    (member : line ∈ splitLines text) : closesFence (fenceAround value) line = false := by
  rw [Bool.eq_false_iff]
  intro closes
  have inside := (infix_of_closesFence closes).trans
    ((Text.infix_of_mem_splitLines member).trans part.isInfix)
  have bounded := le_longestBacktickRun inside
  simp only [fenceAround] at bounded
  omega

theorem prefix_dropFinalNewline (text : List Char) : dropFinalNewline text <+: text := by
  unfold dropFinalNewline
  split
  · exact List.dropLast_prefix text
  · exact List.prefix_refl text

theorem finish_value {value : List Char} (filled : value ≠ []) :
    value ++ (if value.isEmpty || value.getLast? = some '\n' then [] else ['\n']) =
      dropFinalNewline value ++ ['\n'] := by
  have nonempty : value.isEmpty = false := by simpa using filled
  simp only [nonempty, Bool.false_or, decide_eq_true_eq, dropFinalNewline]
  split
  · next ends =>
      obtain ⟨before, rfl⟩ := List.getLast?_eq_some_iff.1 ends
      simp
  · rfl

theorem flatMap_newline (filled : lines ≠ []) :
    (lines.flatMap fun line => line ++ ['\n']) = joinLines lines ++ ['\n'] := by
  induction lines with
  | nil => exact absurd rfl filled
  | cons line others induction =>
      cases others with
      | nil => simp
      | cons next others =>
          rw [List.flatMap_cons, induction (by simp), Text.joinLines_cons line (by simp)]
          simp

theorem flatMap_codeLines (value : List Char) (behind : ∀ c ∈ tail.head?, c = '\n') :
    let finish := if value.isEmpty || value.getLast? = some '\n' then [] else ['\n']
    let below := value ++ finish ++ (List.replicate (fenceAround value) '\x60' ++ tail)
    ((codeLines (fenceAround value) (splitLines below)).flatMap fun line => line ++ ['\n']) =
      if value = [] then [] else dropFinalNewline value ++ ['\n'] := by
  intro finish below
  have long : 0 < fenceAround value := by
    unfold fenceAround
    omega
  have closed := codeLines_fence long behind
  by_cases empty : value = []
  · have only : below = List.replicate (fenceAround value) '\x60' ++ tail := by
      simp [below, finish, empty]
    rw [only, closed, if_pos empty]
    rfl
  · have ended : below = dropFinalNewline value ++
        '\n' :: (List.replicate (fenceAround value) '\x60' ++ tail) := by
      simp only [below, finish]
      rw [finish_value empty]
      simp
    have inside : ∀ line ∈ splitLines (dropFinalNewline value),
        closesFence (fenceAround value) line = false := fun line =>
      closesFence_of_mem (prefix_dropFinalNewline value)
    rw [ended, Text.splitLines_append, codeLines_append inside, closed, List.append_nil,
      flatMap_newline (Text.splitLines_ne_nil _), Text.joinLines_splitLines, if_neg empty]

theorem readCode_codeBlock {lang : Option String}
    (word : ∀ name ∈ lang, ∀ c ∈ name.toList, c ≠ '\n' ∧ c ≠ '\x60') (value : String)
    (behind : ∀ c ∈ tail.head?, c = '\n') :
    readCode (codeBlock lang none value ++ tail) = some (Builder.stripNewline value) := by
  have info : ∀ c ∈ codeInfo lang none, c ≠ '\n' ∧ c ≠ '\x60' := by
    cases lang with
    | none => simp [codeInfo]
    | some name => exact word name rfl
  have single : '\n' ∉ codeFence value.toList ++ codeInfo lang none := by
    intro member
    rcases List.mem_append.1 member with inFence | inInfo
    · cases List.eq_of_mem_replicate inFence
    · exact (info _ inInfo).1 rfl
  have opens : fenceLength (codeFence value.toList ++ codeInfo lang none) =
      fenceAround value.toList :=
    fenceLength_append _ fun c first => (info c (List.mem_of_head? first)).2
  have long : ¬fenceAround value.toList < 3 := by
    unfold fenceAround
    omega
  have below := flatMap_codeLines value.toList behind
  have whole : codeBlock lang none value ++ tail =
      (codeFence value.toList ++ codeInfo lang none) ++ '\n' :: (value.toList ++
        (if value.toList.isEmpty || value.toList.getLast? = some '\n' then [] else ['\n']) ++
        (List.replicate (fenceAround value.toList) '\x60' ++ tail)) := by
    simp only [codeBlock, codeFence, fenceAround, List.append_assoc, List.cons_append]
  rw [readCode, whole, Text.splitLines_append_newline single]
  simp only [opens, long, if_false, below]
  by_cases empty : value.toList = []
  · simp [Builder.stripNewline, dropFinalNewline, empty]
  · simp [Builder.stripNewline, dropFinalNewline, empty]

/-! Documents. -/

theorem finishLine_append (text : List Char) :
    ∃ ending, (∀ c ∈ ending.head?, c = '\n') ∧ finishLine text = text ++ ending := by
  rw [finishLine_eq]
  split
  · exact ⟨['\n'], by simp, rfl⟩
  · exact ⟨[], by simp, by simp⟩

theorem toText_code {options : Options} (unhandled : options.handler? .code = none)
    (frontless : options.frontMatter = none) (lang detail : Option String) (value : String)
    (rest : List Node) :
    ∃ tail, (∀ c ∈ tail.head?, c = '\n') ∧
      (Markdown.toText options (.code lang detail value :: rest)).toList =
        codeBlock lang detail value ++ tail := by
  have first : writeBlocks options ⟨[.root]⟩ false none (.code lang detail value :: rest) .empty =
      writeBlocks options ⟨[.root]⟩ false (some (.code lang detail value)) rest
        (Buffer.empty.push (codeBlock lang detail value)) := by
    simp [writeBlocks, writeNode, separator, continuesList, Options.handled?, Markdown.Node.kind,
      unhandled]
  obtain ⟨others, behind, written⟩ := text_writeBlocks_some options ⟨[.root]⟩ false
    (.code lang detail value) rest (Buffer.empty.push (codeBlock lang detail value))
  obtain ⟨ending, last, finished⟩ := finishLine_append
    (codeBlock lang detail value ++ others)
  refine ⟨others ++ ending, ?_, ?_⟩
  · intro c isFirst
    cases others with
    | nil => exact last c isFirst
    | cons d others => exact behind c isFirst
  · rw [Buffer.text_push] at written
    simp only [Markdown.toText, String.toList_ofList, rootText, frontless, Option.map_none,
      Option.getD_none, Buffer.push_nil, first, written]
    rw [← List.append_assoc]
    exact finished

theorem stripNewline_eq_iff (value : String) :
    Builder.stripNewline value = value ↔ value.toList.getLast? ≠ some '\n' := by
  rw [← String.toList_inj, Builder.stripNewline, String.toList_ofList, dropFinalNewline]
  split
  · next ends =>
      refine iff_of_false (fun same => ?_) (not_not_intro ends)
      have shorter := congrArg List.length same
      have filled := List.length_pos_of_mem (List.mem_of_getLast? ends)
      rw [List.length_dropLast] at shorter
      omega
  · next apart => exact iff_of_true rfl apart

/-- The code block at the start of a document is read with its value, but for a newline at the end
of the value. -/
theorem readCode_toText {options : Options} (unhandled : options.handler? .code = none)
    (frontless : options.frontMatter = none) {lang : Option String}
    (word : ∀ name ∈ lang, ∀ c ∈ name.toList, Text.isWhite c = false ∧ c ≠ '\x60')
    (value : String) (rest : List Node) :
    readCode (Markdown.toText options (.code lang none value :: rest)).toList =
        some (Builder.stripNewline value) ∧
      (Builder.stripNewline value = value ↔ value.toList.getLast? ≠ some '\n') := by
  have plain : ∀ name ∈ lang, ∀ c ∈ name.toList, c ≠ '\n' ∧ c ≠ '\x60' := by
    intro name isLang c member
    obtain ⟨solid, unfenced⟩ := word name isLang c member
    refine ⟨fun newline => ?_, unfenced⟩
    rw [newline] at solid
    cases solid
  obtain ⟨tail, behind, written⟩ := toText_code unhandled frontless lang none value rest
  rw [written]
  exact ⟨readCode_codeBlock plain value behind, stripNewline_eq_iff value⟩

theorem readCode_toText_fenced :
    Options.forDocuments.handler? .code = none ∧ Options.forDocuments.frontMatter = none ∧
      (∀ name ∈ some "rust", ∀ c ∈ name.toList, Text.isWhite c = false ∧ c ≠ '\x60') ∧
      readCode (Markdown.toText .forDocuments
        [.code (some "rust") none "\x60\x60\x60\n\n  \x60\x60\x60\x60 ", .table [] []]).toList =
          some "\x60\x60\x60\n\n  \x60\x60\x60\x60 " := by
  have unhandled : Options.forDocuments.handler? .code = none := rfl
  have word : ∀ name ∈ some "rust", ∀ c ∈ name.toList, Text.isWhite c = false ∧ c ≠ '\x60' := by
    have letters : "rust".toList.all (fun c => !Text.isWhite c && c ≠ '\x60') = true := by decide
    intro name isLang c member
    obtain rfl := Option.some_inj.1 isLang
    simpa using List.all_eq_true.1 letters c member
  obtain ⟨reads, kept⟩ := readCode_toText unhandled rfl word
    "\x60\x60\x60\n\n  \x60\x60\x60\x60 " [.table [] []]
  exact ⟨unhandled, rfl, word, by rw [reads, kept.2 (by decide)]⟩

/-- The newline at the end of a value is not read back. -/
theorem readCode_loses_newline :
    readCode (Markdown.toText .standard [.code none none "a\n"]).toList = some "a" ∧
      ¬∀ value : String, '\r' ∉ value.toList →
        readCode (Markdown.toText .standard [.code none none value]).toList = some value := by
  have lost : readCode (Markdown.toText .standard [.code none none "a\n"]).toList = some "a" := by
    decide +kernel
  refine ⟨lost, fun kept => ?_⟩
  have whole := kept "a\n" (by decide)
  rw [lost] at whole
  exact absurd whole (by decide)

end EditorMarkdown.Writer
