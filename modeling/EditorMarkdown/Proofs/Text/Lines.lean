import EditorMarkdown.Text.Blank
import EditorMarkdown.Text.Lines

/-!
Texts and their lines determine each other. A text is split in one way into a run of characters of a
class and what does not go on with it, and without blanks at its ends it stays as it is when they
are trimmed.
-/

namespace EditorMarkdown.Text

variable {line rest text : List Char} {lines : List (List Char)}

theorem splitLines_cons {c : Char} (inside : c ≠ '\n') (found : splitLines rest = line :: lines) :
    splitLines (c :: rest) = (c :: line) :: lines := by
  simp [splitLines, inside, found]

theorem splitLines_append_of_not_mem (single : '\n' ∉ line) {next : List Char}
    (found : splitLines rest = next :: lines) :
    splitLines (line ++ rest) = (line ++ next) :: lines := by
  induction line with
  | nil => exact found
  | cons c line induction =>
      obtain ⟨first, others⟩ := not_or.1 (mt List.mem_cons.2 single)
      exact splitLines_cons (Ne.symm first) (induction others)

theorem splitLines_of_not_mem (single : '\n' ∉ line) : splitLines line = [line] := by
  have alone := splitLines_append_of_not_mem single splitLines_nil
  rwa [List.append_nil] at alone

theorem splitLines_append (text rest : List Char) :
    splitLines (text ++ '\n' :: rest) = splitLines text ++ splitLines rest := by
  induction text with
  | nil => simp
  | cons c text induction =>
      by_cases newline : c = '\n'
      · simp [newline, induction]
      · obtain ⟨first, others, found⟩ := List.exists_cons_of_ne_nil (splitLines_ne_nil text)
        rw [found, List.cons_append] at induction
        rw [List.cons_append, splitLines_cons newline induction, splitLines_cons newline found,
          List.cons_append]

theorem splitLines_append_newline (single : '\n' ∉ line) (rest : List Char) :
    splitLines (line ++ '\n' :: rest) = line :: splitLines rest := by
  rw [splitLines_append, splitLines_of_not_mem single, List.singleton_append]

theorem joinLines_append_cons (start line : List Char) (lines : List (List Char)) :
    joinLines ((start ++ line) :: lines) = start ++ joinLines (line :: lines) := by
  cases lines with
  | nil => rfl
  | cons next rest => simp [joinLines]

theorem joinLines_append {others : List (List Char)} (filled : lines ≠ []) (more : others ≠ []) :
    joinLines (lines ++ others) = joinLines lines ++ '\n' :: joinLines others := by
  induction lines with
  | nil => exact absurd rfl filled
  | cons line lines induction =>
      cases lines with
      | nil => exact joinLines_cons line more
      | cons next lines =>
          rw [List.cons_append, joinLines_cons line (by simp), induction (by simp),
            joinLines_cons line (by simp), List.append_assoc, List.cons_append]

theorem prefix_of_splitLines (found : splitLines text = line :: lines) : line <+: text := by
  rw [← joinLines_splitLines text, found]
  cases lines with
  | nil => exact List.prefix_rfl
  | cons next lines => exact List.prefix_append _ _

theorem not_mem_of_mem_splitLines (member : line ∈ splitLines text) : '\n' ∉ line := by
  induction text generalizing line with
  | nil =>
      rw [splitLines_nil, List.mem_singleton] at member
      simp [member]
  | cons c text induction =>
      by_cases newline : c = '\n'
      · rw [newline, splitLines_newline, List.mem_cons] at member
        rcases member with rfl | member
        · simp
        · exact induction member
      · obtain ⟨first, others, found⟩ := List.exists_cons_of_ne_nil (splitLines_ne_nil text)
        rw [splitLines_cons newline found, List.mem_cons] at member
        rcases member with rfl | member
        · have apart : '\n' ∉ first := induction (by simp [found])
          exact by simpa [Ne.symm newline] using apart
        · exact induction (by simp [found, member])

theorem splitLines_joinLines (filled : lines ≠ []) (single : ∀ line ∈ lines, '\n' ∉ line) :
    splitLines (joinLines lines) = lines := by
  induction lines with
  | nil => exact absurd rfl filled
  | cons line lines induction =>
      have first := single line List.mem_cons_self
      cases lines with
      | nil => exact splitLines_of_not_mem first
      | cons next lines =>
          have others := induction (by simp) fun line member =>
            single line (List.mem_cons_of_mem _ member)
          rw [joinLines_cons line (by simp), splitLines_append_newline first, others]

theorem infix_joinLines (member : line ∈ lines) : line <:+: joinLines lines := by
  induction lines with
  | nil => cases member
  | cons first others induction =>
      cases others with
      | nil =>
          have whole : joinLines [first] = line := by
            rw [joinLines_singleton, List.mem_singleton.1 member]
          exact ⟨[], [], by rw [whole, List.nil_append, List.append_nil]⟩
      | cons next others =>
          rw [joinLines_cons first (by simp)]
          rcases List.mem_cons.1 member with rfl | behind
          · exact List.infix_append' [] line _
          · exact (induction behind).trans ((List.suffix_cons _ _).isInfix.trans
              (List.suffix_append _ _).isInfix)

theorem infix_of_mem_splitLines (member : line ∈ splitLines text) : line <:+: text := by
  rw [← joinLines_splitLines text]
  exact infix_joinLines member

/-! Runs. -/

theorem span_append {holds : Char → Bool} {run tail : List Char} (all : ∀ c ∈ run, holds c)
    (stops : ∀ c ∈ tail.head?, holds c = false) :
    (run ++ tail).takeWhile holds = run ∧ (run ++ tail).dropWhile holds = tail := by
  rw [List.takeWhile_append_of_pos all, List.dropWhile_append_of_pos all]
  cases tail with
  | nil => simp
  | cons c tail => simp [stops c rfl]

theorem takeWhile_append_cons {holds : Char → Bool} {c : Char} (stops : holds c = false)
    (run tail : List Char) : (run ++ c :: tail).takeWhile holds = run.takeWhile holds := by
  rw [List.takeWhile_append]
  split
  · next whole => simp [stops, (List.takeWhile_prefix _).eq_of_length whole]
  · rfl

theorem span_append_inj {holds : Char → Bool} {run other tail otherTail : List Char}
    (all : ∀ c ∈ run, holds c) (allOther : ∀ c ∈ other, holds c)
    (stops : ∀ c ∈ tail.head?, holds c = false)
    (stopsOther : ∀ c ∈ otherTail.head?, holds c = false)
    (same : run ++ tail = other ++ otherTail) : run = other ∧ tail = otherTail := by
  obtain ⟨taken, left⟩ := span_append all stops
  obtain ⟨takenOther, leftOther⟩ := span_append allOther stopsOther
  rw [same] at taken left
  exact ⟨taken.symm.trans takenOther, left.symm.trans leftOther⟩

/-! Trimming. -/

theorem trimEndWhile_append (drop : Char → Bool) (text : List Char) :
    trimEndWhile drop text ++ (text.reverse.takeWhile drop).reverse = text := by
  rw [trimEndWhile, ← List.reverse_append, List.takeWhile_append_dropWhile, List.reverse_reverse]

theorem trimEndWhile_append_singleton {drop : Char → Bool} {c : Char} (kept : drop c = false)
    (text : List Char) : trimEndWhile drop (text ++ [c]) = text ++ [c] := by
  simp [trimEndWhile, kept]

theorem trimEndWhile_of_getLast? {drop : Char → Bool}
    (ends : ∀ c ∈ text.getLast?, drop c = false) : trimEndWhile drop text = text := by
  rcases List.eq_nil_or_concat text with rfl | ⟨start, c, rfl⟩
  · rfl
  · rw [List.concat_eq_append] at ends ⊢
    exact trimEndWhile_append_singleton (ends c (by simp)) start

theorem getLast?_trimEndWhile (drop : Char → Bool) (text : List Char) :
    ∀ c ∈ (trimEndWhile drop text).getLast?, drop c = false := by
  intro c last
  have stopped := List.head?_dropWhile_not drop text.reverse
  rw [trimEndWhile, List.getLast?_reverse, Option.mem_def] at last
  simpa [last] using stopped

theorem trimEndWhile_append_of_all {drop : Char → Bool} {run : List Char}
    (all : ∀ c ∈ run, drop c) (ends : ∀ c ∈ text.getLast?, drop c = false) :
    trimEndWhile drop (text ++ run) = text := by
  have dropped : ∀ c ∈ run.reverse, drop c := fun c member => all c (List.mem_reverse.1 member)
  rw [trimEndWhile, List.reverse_append, List.dropWhile_append_of_pos dropped, ← trimEndWhile,
    trimEndWhile_of_getLast? ends]

theorem trimWhile_of_ends {drop : Char → Bool} (starts : ∀ c ∈ text.head?, drop c = false)
    (ends : ∀ c ∈ text.getLast?, drop c = false) : trimWhile drop text = text := by
  have whole : text.dropWhile drop = text := by
    cases text with
    | nil => rfl
    | cons c rest => simp [starts c rfl]
  rw [trimWhile, whole, trimEndWhile_of_getLast? ends]

end EditorMarkdown.Text
