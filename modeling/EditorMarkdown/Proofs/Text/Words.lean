import EditorMarkdown.Text.Lines
import Mathlib.Data.List.Forall2

/-!
Words in a text. A word has nothing but letters, so it is still there when other characters are put
between the characters of a text or taken away, and it never reaches beyond a line.
-/

namespace EditorMarkdown.Text

structure IsWord (word : List Char) : Prop where
  filled : word ≠ []
  letters : ∀ c ∈ word, c.isAlpha

instance (word : List Char) : Decidable (IsWord word) :=
  decidable_of_iff (word ≠ [] ∧ word.all Char.isAlpha)
    ⟨fun both => ⟨both.1, List.all_eq_true.1 both.2⟩,
      fun isWord => ⟨isWord.filled, List.all_eq_true.2 isWord.letters⟩⟩

theorem ne_of_isAlpha {c d : Char} (letter : c.isAlpha) (other : d.isAlpha = false) : c ≠ d := by
  rintro rfl
  simp [letter] at other

theorem isDigit_of_isAlpha {c : Char} (letter : c.isAlpha) : c.isDigit = false := by
  have code : (65 ≤ c.toNat ∧ c.toNat ≤ 90) ∨ (97 ≤ c.toNat ∧ c.toNat ≤ 122) := by
    rcases Bool.or_eq_true_iff.1 letter with upper | lower
    · exact .inl (of_decide_eq_true upper)
    · obtain ⟨low, high⟩ := Bool.and_eq_true_iff.1 lower
      exact .inr ⟨of_decide_eq_true low, of_decide_eq_true high⟩
  cases digit : c.isDigit with
  | false => rfl
  | true =>
      obtain ⟨-, high⟩ := Bool.and_eq_true_iff.1 digit
      have below : c.toNat ≤ 57 := of_decide_eq_true high
      omega

theorem IsWord.splitLines {word : List Char} (isWord : IsWord word) : splitLines word = [word] := by
  have letters := isWord.letters
  have filled := isWord.filled
  clear isWord
  induction word with
  | nil => exact absurd rfl filled
  | cons c rest induction =>
      have notNewline : c ≠ '\n' := ne_of_isAlpha (letters c (by simp)) (by decide)
      cases rest with
      | nil => simp [Text.splitLines, notNewline]
      | cons d rest =>
          have others : ∀ e ∈ d :: rest, e.isAlpha := fun e member =>
            letters e (List.mem_cons_of_mem c member)
          rw [Text.splitLines, if_neg notNewline, induction others (by simp)]

/-- Words stand in a text in the given order, each behind the one before it. -/
inductive Holds : List (List Char) → List Char → Prop
  | nil : Holds [] []
  | skip {words : List (List Char)} {text : List Char} (c : Char) (rest : Holds words text) :
      Holds words (c :: text)
  | word {words : List (List Char)} {text word : List Char} (isWord : IsWord word)
      (rest : Holds words text) : Holds (word :: words) (word ++ text)

variable {words others : List (List Char)} {text other lead : List Char}

theorem holds_nil (text : List Char) : Holds [] text := by
  induction text with
  | nil => exact .nil
  | cons c _ induction => exact .skip c induction

theorem Holds.eq_nil (holds : Holds words []) : words = [] := by
  generalize empty : [] = text at holds
  cases holds with
  | nil => rfl
  | skip => cases empty
  | word isWord _ => exact absurd (List.append_eq_nil_iff.1 empty.symm).1 isWord.filled

theorem IsWord.holds {word : List Char} (isWord : IsWord word) : Holds [word] word := by
  simpa using Holds.word isWord .nil

theorem Holds.append (first : Holds words text) (second : Holds others other) :
    Holds (words ++ others) (text ++ other) := by
  induction first with
  | nil => exact second
  | skip c _ induction => exact .skip c induction
  | word isWord _ induction =>
      rw [List.cons_append, List.append_assoc]
      exact .word isWord induction

theorem Holds.behind (holds : Holds words text) (lead : List Char) : Holds words (lead ++ text) :=
  (holds_nil lead).append holds

theorem Holds.before (holds : Holds words text) (tail : List Char) :
    Holds words (text ++ tail) := by
  simpa using holds.append (holds_nil tail)

theorem holds_flatMap {α : Type} {items : List α} {item : α} {write : α → List Char}
    (member : item ∈ items) (holds : Holds words (write item)) :
    Holds words (items.flatMap write) := by
  obtain ⟨before, after, rfl⟩ := List.append_of_mem member
  rw [List.flatMap_append, List.flatMap_cons]
  exact (holds.before _).behind _

theorem holds_joinLines {lines : List (List Char)} {line : List Char} (member : line ∈ lines)
    (holds : Holds words line) : Holds words (joinLines lines) := by
  induction lines with
  | nil => cases member
  | cons first lines induction =>
      cases lines with
      | nil => rwa [joinLines_singleton, ← List.mem_singleton.1 member]
      | cons next lines =>
          rw [joinLines_cons first (List.cons_ne_nil _ _)]
          rcases List.mem_cons.1 member with rfl | behind
          · exact holds.before _
          · exact ((induction behind).behind ['\n']).behind first

theorem Holds.split {first second : List Char} {c : Char} (letter : c.isAlpha = false)
    (holds : Holds words (first ++ c :: second)) :
    ∃ before after, words = before ++ after ∧ Holds before first ∧ Holds after second := by
  generalize whole : first ++ c :: second = text at holds
  induction holds generalizing first with
  | nil => simp at whole
  | @skip words text d rest induction =>
      cases first with
      | nil =>
          obtain ⟨rfl, rfl⟩ := List.cons.inj whole
          exact ⟨[], words, rfl, .nil, rest⟩
      | cons d first =>
          obtain ⟨rfl, rfl⟩ := List.cons.inj whole
          obtain ⟨before, after, rfl, left, right⟩ := induction rfl
          exact ⟨before, after, rfl, .skip _ left, right⟩
  | @word words text word isWord rest induction =>
      -- the character is not in the word, so the word ends before it
      have inFirst : ∃ middle, first = word ++ middle ∧ text = middle ++ c :: second := by
        rcases List.append_eq_append_iff.1 whole with ⟨middle, inWord, ends⟩ | inside
        · cases middle with
          | nil => exact ⟨[], by simpa using inWord.symm, by simpa using ends.symm⟩
          | cons d middle =>
              obtain ⟨rfl, -⟩ := List.cons.inj ends
              have isLetter := isWord.letters c (by simp [inWord])
              simp [letter] at isLetter
        · exact inside
      obtain ⟨middle, rfl, rfl⟩ := inFirst
      obtain ⟨before, after, rfl, left, right⟩ := induction rfl
      exact ⟨word :: before, after, rfl, .word isWord left, right⟩

/-! Changes that keep words. -/

def Keeps (text other : List Char) : Prop := ∀ words, Holds words text → Holds words other

theorem keeps_self (text : List Char) : Keeps text text := fun _ holds => holds

theorem keeps_flatMap {replace : Char → List Char} (letters : ∀ c, c.isAlpha → replace c = [c])
    (text : List Char) : Keeps text (text.flatMap replace) := by
  intro words holds
  induction holds with
  | nil => exact .nil
  | skip c _ induction => exact induction.behind (replace c)
  | @word words text word isWord _ induction =>
      have same : word.flatMap replace = word := by
        rw [List.flatMap_congr fun c member => letters c (isWord.letters c member)]
        exact List.flatMap_singleton' word
      rw [List.flatMap_append, same]
      exact .word isWord induction

theorem keeps_joinLines {lines changed : List (List Char)}
    (keep : List.Forall₂ Keeps lines changed) : Keeps (joinLines lines) (joinLines changed) := by
  induction keep with
  | nil => exact keeps_self _
  | @cons line next lines changed first keep induction =>
      cases keep with
      | nil => exact first
      | cons second keep =>
          intro words holds
          rw [joinLines_cons _ (by simp)] at holds ⊢
          obtain ⟨before, after, rfl, left, right⟩ := holds.split (by decide)
          exact (first before left).append (.skip '\n' (induction after right))

theorem keeps_prefixLines (lead bare text : List Char) :
    Keeps text (prefixLines lead bare text) := by
  have lines : List.Forall₂ Keeps (splitLines text)
      ((splitLines text).map fun line => if line.isEmpty then bare else lead ++ line) := by
    refine List.forall₂_map_right_iff.2 (List.forall₂_same.2 fun line _ words holds => ?_)
    split
    · next empty => simpa [List.isEmpty_iff.1 empty] using holds.append (holds_nil bare)
    · exact holds.behind lead
  simpa [prefixLines] using keeps_joinLines lines

theorem keeps_indentLines (lead text : List Char) : Keeps text (indentLines lead text) := by
  unfold indentLines
  split
  · next none => exact absurd none (splitLines_ne_nil text)
  · next line lines found =>
      have rest : List.Forall₂ Keeps lines
          (lines.map fun next => if next.isEmpty then next else lead ++ next) := by
        refine List.forall₂_map_right_iff.2 (List.forall₂_same.2 fun next _ words holds => ?_)
        split
        · exact holds
        · exact holds.behind lead
      have joined := keeps_joinLines (List.Forall₂.cons (keeps_self line) rest)
      rwa [← found, joinLines_splitLines] at joined

/-! Counting. -/

/-- How many places of a text a word starts at. -/
def occurrences (word : List Char) : List Char → Nat
  | [] => 0
  | c :: rest => (if word.isPrefixOf (c :: rest) then 1 else 0) + occurrences word rest

theorem occurrences_append_le (word first second : List Char) :
    occurrences word first + occurrences word second ≤ occurrences word (first ++ second) := by
  induction first with
  | nil => simp [occurrences]
  | cons c first induction =>
      have starts : word.isPrefixOf (c :: first) → word.isPrefixOf (c :: (first ++ second)) := by
        simp only [List.isPrefixOf_iff_prefix]
        exact fun starts => starts.trans ⟨second, rfl⟩
      simp only [occurrences, List.cons_append]
      split <;> split <;> first | omega | simp_all

def totalOccurrences (word : List Char) (texts : List (List Char)) : Nat :=
  texts.foldr (fun text total => occurrences word text + total) 0

/-- A word occurs in a text at least as often as in the words that stand there. -/
theorem Holds.occurrences_le (holds : Holds words text) (word : List Char) :
    totalOccurrences word words ≤ occurrences word text := by
  induction holds with
  | nil => exact Nat.le_refl _
  | skip c _ induction =>
      simp only [occurrences]
      omega
  | @word words text next _ _ induction =>
      have both := occurrences_append_le word next text
      calc
        totalOccurrences word (next :: words) =
            occurrences word next + totalOccurrences word words := rfl
        _ ≤ occurrences word (next ++ text) := by omega

end EditorMarkdown.Text
