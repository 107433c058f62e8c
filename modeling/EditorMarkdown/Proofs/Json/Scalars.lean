import EditorMarkdown.Json.Codec
import EditorMarkdown.Proofs.Text.Lines
import Mathlib.Tactic.IntervalCases

/-!
Strings and whole numbers are read from what is written for them, up to the text behind them.
-/

namespace EditorMarkdown.Json

/-! Strings. -/

theorem hexUnit?_control {code : Nat} (small : code < 0x20) :
    hexUnit? '0' '0' (hexDigit (code / 16)) (hexDigit code) = some code := by
  interval_cases code <;> rfl

theorem readChars_escapeChar (c : Char) (rest : List Char) :
    readChars (escapeChar c ++ rest) =
      (readChars rest).map fun read => (c :: read.1, read.2) := by
  unfold escapeChar
  split
  · next quote => subst quote; rfl
  split
  · next backslash => subst backslash; rfl
  split
  · next backspace => subst backspace; rfl
  split
  · next formFeed => subst formFeed; rfl
  split
  · next newline => subst newline; rfl
  split
  · next carriage => subst carriage; rfl
  split
  · next tab => subst tab; rfl
  split
  · next control =>
      have high : isHighSurrogate c.toNat = false := by
        simp only [isHighSurrogate, Bool.and_eq_false_iff, decide_eq_false_iff_not]
        omega
      have low : isLowSurrogate c.toNat = false := by
        simp only [isLowSurrogate, Bool.and_eq_false_iff, decide_eq_false_iff_not]
        omega
      simp only [List.cons_append, List.nil_append]
      rw [readChars, hexUnit?_control control]
      simp only [high, low, Char.ofNat_toNat]
      rfl
  · next quote backslash _ _ _ _ _ control =>
      rw [List.singleton_append, readChars]
      · rw [if_neg control]
        rfl
      · exact quote
      · rintro _ _ _ _ _ rfl
        exact absurd rfl backslash
      · rintro _ _ rfl
        exact absurd rfl backslash

theorem readChars_quoted (text rest : List Char) :
    readChars (text.flatMap escapeChar ++ '"' :: rest) = some (text, rest) := by
  induction text with
  | nil => simp [readChars]
  | cons c text induction =>
      rw [List.flatMap_cons, List.append_assoc, readChars_escapeChar, induction]
      rfl

/-! Numbers. -/

theorem digitChar_value {digit : Nat} (small : digit < 10) :
    (Nat.digitChar digit).toNat - 48 = digit := by
  interval_cases digit <;> rfl

theorem foldl_addWhole_toDigits (number : Nat) (fits : number ≤ 18446744073709551615) :
    (Nat.toDigits 10 number).foldl Decimal.addWhole .zero = ⟨number, 0, false⟩ := by
  induction number using Nat.strongRecOn with
  | ind number induction =>
      rcases Nat.lt_or_ge number 10 with small | large
      · have fit : ¬18446744073709551615 < number := by omega
        rw [Nat.toDigits_of_lt_base small]
        simp [Decimal.addWhole, Decimal.extend?, Decimal.zero, greatestSignificand,
          digitChar_value small, fit]
      · have shorter := induction (number / 10) (by omega) (by omega)
        have last : number % 10 < 10 := Nat.mod_lt _ (by decide)
        have whole : number / 10 * 10 + number % 10 = number := by omega
        have fit : ¬18446744073709551615 < number := by omega
        rw [Nat.toDigits_of_base_le (by decide) large, List.foldl_append, shorter]
        simp [Decimal.addWhole, Decimal.extend?, greatestSignificand, digitChar_value last, whole,
          fit]

theorem isDigit_of_mem_toDigits {number : Nat} {c : Char} (member : c ∈ Nat.toDigits 10 number) :
    isDigit c :=
  Nat.isDigit_of_mem_toDigits (by decide) (by decide) member

theorem head?_toDigits {number : Nat} (leading : (Nat.toDigits 10 number).head? = some '0') :
    number = 0 := by
  induction number using Nat.strongRecOn with
  | ind number induction =>
      rcases Nat.lt_or_ge number 10 with small | large
      · rw [Nat.toDigits_of_lt_base small] at leading
        interval_cases number
        · rfl
        all_goals cases leading
      · rw [Nat.toDigits_of_base_le (by decide) large, List.head?_append] at leading
        cases first : (Nat.toDigits 10 (number / 10)).head? with
        | none => exact absurd (List.head?_eq_none_iff.1 first) Nat.toDigits_ne_nil
        | some c =>
            rw [first, Option.some_or] at leading
            have zero := induction (number / 10) (by omega) (first.trans leading)
            omega

def EndsNumber (rest : List Char) : Prop :=
  ∀ c ∈ rest.head?, isDigit c = false ∧ c ≠ '.' ∧ c ≠ 'e' ∧ c ≠ 'E'

theorem readDigits_toDigits (negative : Bool) {number : Nat}
    (fits : number ≤ 18446744073709551615) {rest : List Char} (ends : EndsNumber rest) :
    readDigits negative (Nat.toDigits 10 number ++ rest) =
      (wholeValue? negative ⟨number, 0, false⟩).map (·, rest) := by
  have all : ∀ c ∈ Nat.toDigits 10 number, isDigit c := fun _ => isDigit_of_mem_toDigits
  have stops : ∀ c ∈ rest.head?, isDigit c = false := fun c first => (ends c first).1
  obtain ⟨digits, behind⟩ := Text.span_append all stops
  have single : ((Nat.toDigits 10 number).head? = some '0' ∧
      (Nat.toDigits 10 number).length ≠ 1) = False := by
    apply eq_false
    rintro ⟨leading, long⟩
    rw [head?_toDigits leading] at long
    exact long rfl
  have filled : (Nat.toDigits 10 number).isEmpty = false := by
    simp [Nat.toDigits_ne_nil]
  simp only [readDigits, digits, behind, foldl_addWhole_toDigits number fits, filled,
    Bool.false_or, ← Bool.decide_and, single, decide_false, Bool.false_eq_true, if_false]
  split
  · exact absurd rfl (ends '.' rfl).2.1
  · exact absurd rfl (ends 'e' rfl).2.2.1
  · exact absurd rfl (ends 'E' rfl).2.2.2
  · rfl

end EditorMarkdown.Json
