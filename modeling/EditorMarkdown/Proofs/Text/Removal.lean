import EditorMarkdown.Text.Lines

/-!
Parts of a text. What is left of a text when a part is taken out is settled from the left: where the
part stands, it is passed over, and any other character is kept. What that brings together is not
looked at again, so the part may stand in what is left.
-/

namespace EditorMarkdown.Text

variable {part text left other : List Char}

theorem containsPart_iff : containsPart part text ↔ part <:+: text := by
  induction text with
  | nil => simp [containsPart]
  | cons c rest induction =>
      simp only [containsPart, Bool.or_eq_true, List.isPrefixOf_iff_prefix, induction,
        List.infix_cons_iff]

/-- Taking a part out of a text leaves another text. -/
inductive Leaves (part : List Char) : List Char → List Char → Prop
  | nil : Leaves part [] []
  | keep {c : Char} {text left : List Char} (other : ¬part <+: c :: text)
      (behind : Leaves part text left) : Leaves part (c :: text) (c :: left)
  | pass {text left : List Char} (behind : Leaves part text left) :
      Leaves part (part ++ text) left

theorem leaves_replacePart (filled : part ≠ []) (text : List Char) :
    Leaves part text (replacePart part [] text) := by
  induction length : text.length using Nat.strongRecOn generalizing text with
  | ind n induction =>
      cases text with
      | nil =>
          rw [replacePart_nil]
          exact .nil
      | cons c rest =>
          by_cases stands : part <+: c :: rest
          · obtain ⟨behind, whole⟩ := stands
            have shorter : behind.length < n := by
              have := List.length_pos_iff.2 filled
              rw [← length, ← whole, List.length_append]
              omega
            rw [← whole, replacePart_append _ filled]
            exact .pass (induction _ shorter behind rfl)
          · rw [replacePart_cons _ filled stands]
            exact .keep stands (induction _ (length ▸ Nat.lt_succ_self _) rest rfl)

theorem Leaves.eq_replacePart (leaves : Leaves part text left) (filled : part ≠ []) :
    left = replacePart part [] text := by
  induction leaves with
  | nil => rw [replacePart_nil]
  | keep other _ induction => rw [replacePart_cons _ filled other, induction]
  | pass _ induction => rw [replacePart_append _ filled, induction, List.nil_append]

theorem leaves_iff (filled : part ≠ []) : Leaves part text left ↔ left = replacePart part [] text :=
  ⟨fun leaves => leaves.eq_replacePart filled, fun same => same ▸ leaves_replacePart filled text⟩

end EditorMarkdown.Text
