import EditorMarkdown.Proofs.Writer.Decoding
import EditorMarkdown.Source.Inline

/-!
Code spans as readers see them. A run of backticks opens the span and the next run of the same
length closes it; of the content between them, a space is taken off at each end if both are there
and the content is not all spaces. The writer's fence is longer than any run in the value, and a
space stands at each end just where a backtick would touch the fence or a space of the value would
go.
-/

namespace EditorMarkdown.Writer

open Markdown (Node)
open Text (isWhite)

variable {line content : List Char} {length : Nat} {c : Char}

/-! Reading. -/

/-- The content between two fences of the given length is read as a value. -/
structure ReadsAsCode (length : Nat) (content value : List Char) : Prop where
  opens : content.head? ≠ some '\x60'
  closes : content.getLast? ≠ some '\x60'
  fenceless : ¬List.replicate length '\x60' <:+: content
  stripped : Source.stripSpan (Source.spanText false content) = value

theorem spanText_eq (single : '\n' ∉ content) (returnless : '\r' ∉ content) :
    Source.spanText false content = content := by
  fun_induction Source.spanText false content with
  | case1 => rfl
  | case2 rest found => cases found
  | case3 rest _ induction =>
      have restSingle : '\n' ∉ rest := fun member => single (by simp [member])
      have restReturnless : '\r' ∉ rest := fun member => returnless (by simp [member])
      rw [induction restSingle restReturnless]
  | case4 c rest _ induction =>
      simp only [List.mem_cons, not_or] at single returnless
      have kept : ¬(c = '\n' ∨ c = '\r') := by
        rintro (rfl | rfl)
        · exact single.1 rfl
        · exact returnless.1 rfl
      rw [induction single.2 returnless.2]
      simp [kept]

/-! Padding. -/

def padded (line : List Char) : List Char :=
  if isPadded line then ' ' :: line ++ [' '] else line

theorem getLast?_spaced (line : List Char) : (' ' :: line ++ [' ']).getLast? = some ' ' :=
  List.getLast?_concat

theorem infix_of_infix_padded (filled : 0 < length)
    (inside : List.replicate length '\x60' <:+: padded line) :
    List.replicate length '\x60' <:+: line := by
  obtain ⟨shorter, rfl⟩ := Nat.exists_eq_succ_of_ne_zero (Nat.ne_of_gt filled)
  unfold padded at inside
  split at inside
  · rw [List.cons_append, List.infix_cons_iff, List.replicate_succ] at inside
    rcases inside with leading | inside
    · simp at leading
    · rw [← List.reverse_infix, List.reverse_append, List.reverse_singleton,
        List.singleton_append, List.infix_cons_iff] at inside
      rcases inside with trailing | inside
      · rw [← List.replicate_succ, List.reverse_replicate, List.replicate_succ] at trailing
        simp at trailing
      · exact List.reverse_infix.1 inside
  · exact inside

theorem isPadded_eq_false_iff : isPadded line = false ↔
    line.head? ≠ some '\x60' ∧ line.getLast? ≠ some '\x60' ∧
      (line.head? = some ' ' → line.getLast? = some ' ' → line.all isWhite) := by
  simp [isPadded, and_assoc]

theorem stripSpan_padded (visible : line.all isWhite = false) :
    Source.stripSpan (padded line) = line := by
  unfold padded
  cases pads : isPadded line with
  | true =>
      have seen : (' ' :: line ++ [' ']).all (· = ' ') = false := by
        obtain ⟨c, member, solid⟩ := List.all_eq_false.1 visible
        refine List.all_eq_false.2 ⟨c, by simp [member], fun space => solid ?_⟩
        rw [of_decide_eq_true space]
        rfl
      rw [if_pos rfl, Source.stripSpan, seen, getLast?_spaced]
      simp
  | false =>
      obtain ⟨-, -, spaced⟩ := isPadded_eq_false_iff.1 pads
      have kept : ¬(line.head? = some ' ' ∧ line.getLast? = some ' ') := by
        rintro ⟨starts, ends⟩
        rw [spaced starts ends] at visible
        cases visible
      rw [if_neg Bool.false_ne_true, Source.stripSpan]
      simp only [Bool.and_eq_true, decide_eq_true_eq]
      exact if_neg fun both => kept both.1

theorem readsAsCode_padded (single : '\n' ∉ line) (returnless : '\r' ∉ line)
    (visible : line.all isWhite = false) :
    ReadsAsCode (longestBacktickRun line + 1) (padded line) line := by
  refine ⟨?_, ?_, ?_, ?_⟩
  · unfold padded
    cases pads : isPadded line with
    | true => simp
    | false => exact (isPadded_eq_false_iff.1 pads).1
  · unfold padded
    cases pads : isPadded line with
    | true =>
        rw [if_pos rfl, getLast?_spaced]
        decide
    | false => exact (isPadded_eq_false_iff.1 pads).2.1
  · intro inside
    exact absurd (le_longestBacktickRun (infix_of_infix_padded (Nat.succ_pos _) inside)) (by omega)
  · have apart : ∀ d ∈ ['\n', '\r'], d ∉ line → d ∉ padded line := by
      intro d member notIn
      have solid : d ≠ ' ' := by
        rintro rfl
        simp at member
      unfold padded
      split <;> simp [notIn, solid]
    rw [spanText_eq (apart '\n' (by simp) single) (apart '\r' (by simp) returnless),
      stripSpan_padded visible]

/-! Spans. -/

theorem codeLine_eq {value : String} (single : '\n' ∉ value.toList) :
    codeLine false value = value.toList := by
  have kept : ∀ c ∈ value.toList, (if c = '\n' then ' ' else c) = c := by
    intro c member
    refine if_neg fun newline => single ?_
    rwa [newline] at member
  rw [codeLine, if_neg Bool.false_ne_true, List.map_congr_left kept, List.map_id']

theorem codeSpan_eq {value : String} (single : '\n' ∉ value.toList) :
    codeSpan false value =
      List.replicate (longestBacktickRun value.toList + 1) '\x60' ++ padded value.toList ++
        List.replicate (longestBacktickRun value.toList + 1) '\x60' := by
  rw [codeSpan, codeLine_eq single, padded]
  cases isPadded value.toList <;> simp

theorem getLast?_codeSpan (inCell : Bool) (value : String) :
    (codeSpan inCell value).getLast? = some '\x60' := by
  simp [codeSpan, List.getLast?_append, List.getLast?_replicate]

theorem writeNode_inlineCode {options : Options} {scope : Scope}
    (unhandled : options.handler? .inlineCode = none) (outside : scope.within .tableCell = false)
    {buffer : Buffer} (apart : buffer.text.getLast? ≠ some '\x60') (value : String) :
    writeNode options scope false (.inlineCode value) buffer =
      buffer.push (codeSpan false value) := by
  have free : options.handled? scope (.inlineCode value) = none := by
    simp [Options.handled?, Markdown.Node.kind, unhandled]
  simp only [writeNode, free, ite_self, outside, Buffer.pushCode, if_neg apart, Buffer.push_nil]

/-- Inline code on one line is read as its value if it is not blank: as a paragraph of its own, and
wherever else such a paragraph is written behind anything but a backtick. -/
theorem inlineCode_readsAsCode {value : String} (single : '\n' ∉ value.toList)
    (returnless : '\r' ∉ value.toList) (visible : ∃ c ∈ value.toList, isWhite c = false) :
    ∃ (length : Nat) (content : List Char),
      0 < length ∧ ReadsAsCode length content value.toList ∧
      (Markdown.toText .standard [.paragraph [.inlineCode value]]).toList =
        List.replicate length '\x60' ++ content ++ List.replicate length '\x60' ++ ['\n'] ∧
      ∀ (options : Options) (scope : Scope) (buffer : Buffer),
        options.handler? .paragraph = none → options.handler? .inlineCode = none →
        scope.within .tableCell = false → buffer.text.getLast? ≠ some '\x60' →
          (writeNode options scope false (.paragraph [.inlineCode value]) buffer).text =
            buffer.text ++ (List.replicate length '\x60' ++ content ++
              List.replicate length '\x60') := by
  have seen : value.toList.all isWhite = false := by
    simpa [List.all_eq_false] using visible
  have anywhere : ∀ (options : Options) (scope : Scope) (buffer : Buffer),
      options.handler? .paragraph = none → options.handler? .inlineCode = none →
      scope.within .tableCell = false → buffer.text.getLast? ≠ some '\x60' →
        (writeNode options scope false (.paragraph [.inlineCode value]) buffer).text =
          buffer.text ++ codeSpan false value := by
    intro options scope buffer unhandled unhandledCode outside apart
    have free : options.handled? scope (.paragraph [.inlineCode value]) = none := by
      simp [Options.handled?, Markdown.Node.kind, unhandled]
    have within : (scope.enter .paragraph).within .tableCell = false := by simp [outside]
    rw [writeNode]
    simp only [free, ite_self, writeInlines, writeNode_inlineCode unhandledCode within apart,
      Buffer.text_push]
  refine ⟨longestBacktickRun value.toList + 1, padded value.toList, Nat.succ_pos _,
    readsAsCode_padded single returnless seen, ?_, ?_⟩
  · have alone : blocksText .standard [.paragraph [.inlineCode value]] = codeSpan false value := by
      rw [blocksText_singleton,
        anywhere .standard ⟨[]⟩ .empty rfl rfl rfl (by simp [Buffer.empty])]
      rfl
    have ends : (blocksText .standard [.paragraph [.inlineCode value]]).getLast? = some '\x60' := by
      rw [alone, getLast?_codeSpan]
    rw [toText_of_getLast? ends (by decide), alone, codeSpan_eq single]
  · rw [← codeSpan_eq single]
    exact anywhere

theorem inlineCode_readsAsCode_ticks :
    '\n' ∉ "\x60a \x60\x60b ".toList ∧ '\r' ∉ "\x60a \x60\x60b ".toList ∧
      (∃ c ∈ "\x60a \x60\x60b ".toList, isWhite c = false) ∧
      ∃ (length : Nat) (content : List Char),
        0 < length ∧ ReadsAsCode length content "\x60a \x60\x60b ".toList ∧
        (Markdown.toText .standard [.paragraph [.inlineCode "\x60a \x60\x60b "]]).toList =
          List.replicate length '\x60' ++ content ++ List.replicate length '\x60' ++ ['\n'] := by
  have single : '\n' ∉ "\x60a \x60\x60b ".toList := by decide
  have returnless : '\r' ∉ "\x60a \x60\x60b ".toList := by decide
  have visible : ∃ c ∈ "\x60a \x60\x60b ".toList, isWhite c = false :=
    ⟨'a', by decide, by decide⟩
  obtain ⟨length, content, filled, reads, written, -⟩ :=
    inlineCode_readsAsCode single returnless visible
  exact ⟨single, returnless, visible, length, content, filled, reads, written⟩

end EditorMarkdown.Writer
