import EditorMarkdown.Proofs.Writer.Spelling
import EditorMarkdown.Text.Reference

/-!
Character references as readers see them: what follows the ampersand is made of letters, digits and
hashes up to a semicolon, and stands for one or two characters. Whether the writer takes something
for a reference only depends on its form, so it protects every reference and some texts besides.
-/

namespace EditorMarkdown.Writer

open Text (characterOf isHexDigit namedCharacters numberOf readNumber readReference)

variable {text body tail digits characters : List Char} {c : Char} {length : Nat}

/-! The form of a reference. -/

/-- A text starts with the body of a reference and the semicolon behind it. -/
structure Refers (body tail text : List Char) : Prop where
  filled : body ≠ []
  all : ∀ c ∈ body, isReferenceChar c
  whole : text = body ++ ';' :: tail

theorem Refers.span (refers : Refers body tail text) :
    text.takeWhile isReferenceChar = body ∧ text.dropWhile isReferenceChar = ';' :: tail := by
  have stops : ∀ c ∈ (';' :: tail).head?, isReferenceChar c = false := by
    rintro c first
    cases first
    rfl
  rw [refers.whole]
  exact Text.span_append refers.all stops

theorem startsReference_iff : startsReference text ↔ ∃ body tail, Refers body tail text := by
  constructor
  · intro starts
    simp only [startsReference, Bool.and_eq_true, Bool.not_eq_true', List.isEmpty_eq_false_iff,
      decide_eq_true_eq] at starts
    obtain ⟨filled, ends⟩ := starts
    obtain ⟨tail, behind⟩ := List.head?_eq_some_iff.1 ends
    refine ⟨_, tail, filled, fun c member => List.mem_takeWhile_imp member, ?_⟩
    rw [← behind, List.takeWhile_append_dropWhile]
  · rintro ⟨body, tail, refers⟩
    obtain ⟨run, behind⟩ := refers.span
    simp [startsReference, run, behind, refers.filled]

/-! Reading references. -/

section

variable {base limit : Nat} {isDigit : Char → Bool}

theorem readNumber_eq_some
    (found : readNumber base limit isDigit text = some (characters, length)) :
    ∃ digits tail, digits ≠ [] ∧ (∀ c ∈ digits, isDigit c) ∧ text = digits ++ ';' :: tail ∧
      length = digits.length + 1 ∧ characters.length = 1 := by
  rw [readNumber] at found
  split at found
  · cases found
  · next shaped =>
      cases found
      simp only [Bool.or_eq_true, not_or, List.isEmpty_iff, decide_eq_true_eq, not_not] at shaped
      obtain ⟨filled, ends⟩ := shaped
      obtain ⟨tail, behind⟩ := List.head?_eq_some_iff.1 ends
      have before : (text.take limit).takeWhile isDigit <+: text :=
        (List.takeWhile_prefix _).trans (List.take_prefix _ _)
      refine ⟨_, tail, filled, fun c member => List.mem_takeWhile_imp member, ?_, rfl, rfl⟩
      rw [← behind]
      conv => lhs; rw [← List.take_append_drop ((text.take limit).takeWhile isDigit).length text]
      rw [← List.prefix_iff_eq_take.1 before]

theorem head?_drop_append {run : List Char} (before : run <+: body) (tail other : List Char) :
    ((body ++ ';' :: tail).drop run.length).head? =
      ((body ++ ';' :: other).drop run.length).head? := by
  have shorter := before.length_le
  rw [List.drop_append_of_le_length shorter, List.drop_append_of_le_length shorter]
  cases body.drop run.length <;> rfl

theorem readNumber_append (apart : isDigit ';' = false) (body tail other : List Char) :
    readNumber base limit isDigit (body ++ ';' :: tail) =
      readNumber base limit isDigit (body ++ ';' :: other) := by
  have run : ∀ tail, ((body ++ ';' :: tail).take limit).takeWhile isDigit =
      (body.take limit).takeWhile isDigit := by
    intro tail
    rw [List.take_append]
    cases limit - body.length with
    | zero => rw [List.take_zero, List.append_nil]
    | succ more => exact Text.takeWhile_append_cons apart _ _
  have shorter : (body.take limit).takeWhile isDigit <+: body :=
    (List.takeWhile_prefix _).trans (List.take_prefix _ _)
  simp only [readNumber, run, head?_drop_append shorter _ other]

end

theorem readReference_hex (marked : c = 'x' ∨ c = 'X') (digits : List Char) :
    readReference ('#' :: c :: digits) =
      (readNumber 16 6 isHexDigit digits).map fun (cs, n) => (cs, n + 2) := by
  rcases marked with rfl | rfl <;> rfl

theorem readReference_decimal (unmarked : ∀ c ∈ text.head?, c ≠ 'x' ∧ c ≠ 'X') :
    readReference ('#' :: text) =
      (readNumber 10 7 Char.isDigit text).map fun (cs, n) => (cs, n + 1) := by
  rw [readReference]
  · rintro digits rfl
    exact (unmarked 'x' rfl).1 rfl
  · rintro digits rfl
    exact (unmarked 'X' rfl).2 rfl

theorem readReference_named (named : text.head? ≠ some '#') :
    readReference text =
      if (text.drop (text.takeWhile Char.isAlphanum).length).head? = some ';' then
        (namedCharacters (text.takeWhile Char.isAlphanum)).map fun cs =>
          (cs, (text.takeWhile Char.isAlphanum).length + 1)
      else none := by
  rw [readReference]
  · rintro digits rfl
    exact named rfl
  · rintro digits rfl
    exact named rfl
  · rintro digits rfl
    exact named rfl

theorem length_namedCharacters (found : namedCharacters text = some characters) :
    text ≠ [] ∧ characters.length ≤ 2 := by
  cases text with
  | nil => cases found
  | cons c rest =>
      refine ⟨List.cons_ne_nil c rest, ?_⟩
      unfold namedCharacters at found
      simp only at found
      split at found
      · cases found
        exact Nat.le_succ 1
      · obtain ⟨pair, -, rfl⟩ := Option.map_eq_some_iff.1 found
        exact Nat.le_refl 2

theorem isReferenceChar_of_isHexDigit (digit : isHexDigit c) : isReferenceChar c := by
  have letters : isReferenceChar c = (c.isUpper || c.isLower || c.isDigit || c = '#') := rfl
  simp only [isHexDigit, Bool.or_eq_true, Bool.and_eq_true, decide_eq_true_eq] at digit
  rcases digit with (isDigit | ⟨low, high⟩) | ⟨low, high⟩
  · simp [letters, isDigit]
  · have isLower : c.isLower := Bool.and_eq_true_iff.2
      ⟨decide_eq_true low, decide_eq_true (UInt32.le_trans high (by decide))⟩
    simp [letters, isLower]
  · have isUpper : c.isUpper := decide_eq_true ⟨low, UInt32.le_trans high (by decide)⟩
    simp [letters, isUpper]

theorem refers_of_readNumber {base limit : Nat} {isDigit : Char → Bool}
    (digitsIn : ∀ c, isDigit c → isReferenceChar c) (lead : List Char)
    (leadIn : lead.all isReferenceChar)
    (found : (readNumber base limit isDigit digits).map (fun (cs, n) => (cs, n + lead.length)) =
      some (characters, length)) :
    ∃ body tail, Refers body tail (lead ++ digits) ∧ length = body.length + 1 ∧
      characters.length ≤ 2 := by
  obtain ⟨⟨cs, n⟩, read, same⟩ := Option.map_eq_some_iff.1 found
  cases same
  obtain ⟨run, tail, filled, all, rfl, rfl, one⟩ := readNumber_eq_some read
  refine ⟨lead ++ run, tail, ⟨by simp [filled], ?_, by simp⟩, ?_, ?_⟩
  · intro c member
    rcases List.mem_append.1 member with inLead | inRun
    · exact List.all_eq_true.1 leadIn c inLead
    · exact digitsIn c (all c inRun)
  · simp only [List.length_append]
    omega
  · exact one ▸ Nat.le_succ 1

/-- What is read as a reference has the form of one, and stands for fewer characters than it is
written with. -/
theorem readReference_eq_some (found : readReference text = some (characters, length)) :
    ∃ body tail, Refers body tail text ∧ length = body.length + 1 ∧ characters.length ≤ 2 := by
  by_cases numeric : text.head? = some '#'
  · obtain ⟨digits, rfl⟩ := List.head?_eq_some_iff.1 numeric
    by_cases marked : ∃ c ∈ digits.head?, c = 'x' ∨ c = 'X'
    · obtain ⟨c, first, marked⟩ := marked
      obtain ⟨digits, rfl⟩ := List.head?_eq_some_iff.1 first
      rw [readReference_hex marked] at found
      refine refers_of_readNumber (fun _ => isReferenceChar_of_isHexDigit) ['#', c] ?_ found
      rcases marked with rfl | rfl <;> decide
    · rw [readReference_decimal (by simpa using marked)] at found
      refine refers_of_readNumber (fun c digit => ?_) ['#'] (by decide) found
      simp [isReferenceChar, Char.isAlphanum, digit]
  · rw [readReference_named numeric] at found
    split at found
    · next ends =>
        obtain ⟨cs, named, same⟩ := Option.map_eq_some_iff.1 found
        cases same
        obtain ⟨filled, short⟩ := length_namedCharacters named
        obtain ⟨tail, behind⟩ := List.head?_eq_some_iff.1 ends
        refine ⟨_, tail, ⟨filled, fun c member => ?_, ?_⟩, rfl, short⟩
        · simp [isReferenceChar, List.mem_takeWhile_imp member]
        · rw [← behind]
          conv => lhs; rw [← List.take_append_drop (text.takeWhile Char.isAlphanum).length text]
          rw [← List.prefix_iff_eq_take.1 (List.takeWhile_prefix _)]
    · cases found

theorem readReference_eq_none (starts : startsReference text = false) :
    readReference text = none := by
  refine Option.eq_none_iff_forall_ne_some.2 fun (characters, length) found => ?_
  obtain ⟨body, tail, refers, -⟩ := readReference_eq_some found
  rw [startsReference_iff.2 ⟨body, tail, refers⟩] at starts
  cases starts

theorem readReference_append (body tail other : List Char) :
    readReference (body ++ ';' :: tail) = readReference (body ++ ';' :: other) := by
  by_cases numeric : body.head? = some '#'
  · obtain ⟨digits, rfl⟩ := List.head?_eq_some_iff.1 numeric
    by_cases marked : ∃ c ∈ digits.head?, c = 'x' ∨ c = 'X'
    · obtain ⟨c, first, marked⟩ := marked
      obtain ⟨digits, rfl⟩ := List.head?_eq_some_iff.1 first
      simp only [List.cons_append, readReference_hex marked]
      rw [readNumber_append (by decide) digits tail other]
    · have unmarked : ∀ tail, ∀ c ∈ (digits ++ ';' :: tail).head?, c ≠ 'x' ∧ c ≠ 'X' := by
        intro tail c first
        cases digits with
        | nil =>
            cases first
            decide
        | cons d digits => simpa using fun found => marked ⟨c, first, found⟩
      simp only [List.cons_append, readReference_decimal (unmarked _)]
      rw [readNumber_append (by decide) digits tail other]
  · have named : ∀ tail, (body ++ ';' :: tail).head? ≠ some '#' := by
      intro tail
      cases body with
      | nil => simp
      | cons c body => exact numeric
    have run : ∀ tail, (body ++ ';' :: tail).takeWhile Char.isAlphanum =
        body.takeWhile Char.isAlphanum := Text.takeWhile_append_cons (by decide) body
    simp only [readReference_named (named _), run,
      head?_drop_append (List.takeWhile_prefix _) tail other]

/-! What the writer protects. -/

theorem escapeReferences_starts (starts : startsReference text) :
    escapeReferences ('&' :: text) = '\\' :: '&' :: escapeReferences text := by
  rw [escapeReferences, if_pos (by simp [starts])]

theorem escapeReferences_cons (alone : c = '&' → startsReference text = false) :
    escapeReferences (c :: text) = c :: escapeReferences text := by
  rw [escapeReferences, if_neg]
  simpa using alone

theorem escapeReferences_ne_nil (filled : text ≠ []) : escapeReferences text ≠ [] := by
  cases text with
  | nil => exact absurd rfl filled
  | cons c text =>
      rw [escapeReferences]
      split <;> exact List.cons_ne_nil _ _

theorem escapeReferences_concat (outside : isReferenceChar c = false) (apart : c ≠ ';')
    (text : List Char) : escapeReferences (text ++ [c]) = escapeReferences text ++ [c] := by
  induction text with
  | nil => exact escapeReferences_cons fun _ => rfl
  | cons d text induction =>
      rw [List.cons_append, escapeReferences, escapeReferences,
        startsReference_append_cons outside apart, induction]
      split <;> rfl

theorem head?_escapeReferences_of_ne (apart : c ≠ '\\') (other : c ≠ '&') (text : List Char) :
    (escapeReferences text).head? = some c ↔ text.head? = some c := by
  cases text with
  | nil => simp [escapeReferences]
  | cons d text =>
      by_cases reference : d = '&' ∧ startsReference text
      · obtain ⟨rfl, starts⟩ := reference
        rw [escapeReferences_starts starts]
        simp [apart.symm, other.symm]
      · rw [escapeReferences_cons (by simpa using reference)]
        rfl

theorem span_escapeReferences (text : List Char) :
    (escapeReferences text).takeWhile isReferenceChar = text.takeWhile isReferenceChar ∧
      (escapeReferences text).dropWhile isReferenceChar =
        escapeReferences (text.dropWhile isReferenceChar) := by
  induction text with
  | nil => simp [escapeReferences]
  | cons c rest induction =>
      by_cases reference : c = '&' ∧ startsReference rest
      · obtain ⟨rfl, starts⟩ := reference
        have ampersand : isReferenceChar '&' = false := rfl
        have backslash : isReferenceChar '\\' = false := rfl
        simp [escapeReferences_starts starts, ampersand, backslash]
      · have bare : escapeReferences (c :: rest) = c :: escapeReferences rest :=
          escapeReferences_cons (by simpa using reference)
        cases isIn : isReferenceChar c with
        | true => simp [bare, isIn, induction]
        | false => simp [bare, isIn]

theorem startsReference_escapeReferences (text : List Char) :
    startsReference (escapeReferences text) = startsReference text := by
  obtain ⟨body, behind⟩ := span_escapeReferences text
  have semicolon : ∀ text, (escapeReferences text).head? = some ';' ↔ text.head? = some ';' :=
    head?_escapeReferences_of_ne (by decide) (by decide)
  simp only [startsReference, body, behind, semicolon]

theorem Refers.escapeReferences_eq (refers : Refers body tail text) :
    escapeReferences text = body ++ ';' :: escapeReferences tail := by
  obtain ⟨run, behind⟩ := span_escapeReferences text
  rw [← List.takeWhile_append_dropWhile (p := isReferenceChar) (l := escapeReferences text), run,
    behind, refers.span.1, refers.span.2]
  rfl

theorem readReference_escapeReferences (text : List Char) :
    readReference (escapeReferences text) = readReference text := by
  cases starts : startsReference text with
  | true =>
      obtain ⟨body, tail, refers⟩ := startsReference_iff.1 starts
      rw [refers.escapeReferences_eq, refers.whole, readReference_append]
  | false =>
      rw [readReference_eq_none starts,
        readReference_eq_none (by rw [startsReference_escapeReferences, starts])]

end EditorMarkdown.Writer
