import EditorMarkdown.Proofs.Text.Lines
import EditorMarkdown.Text.TaskMarker

/-!
Escaped task markers are found line by line. Looking for them in the whole text, from the left and
without overlaps, finds the ones that the lines begin with: none goes over the end of a line, and
what is behind one is not at the start of a line. A line that has its marker back has no other one
at its start, so nothing is left to do.
-/

namespace EditorMarkdown.Text

variable {blanks behind line text left : List Char} {lines : List (List Char)} {lineStart : Bool}

structure StartsEscaped (blanks behind text : List Char) : Prop where
  blank : ∀ c ∈ blanks, isBlank c
  eq : text = blanks ++ escapedTaskMarker ++ behind

/-- What a text is with its task markers unescaped. They are looked for from the left, and the
search goes on behind each of them; it finds them at the start of the text, if this is the start of
a line, and behind each newline. -/
inductive Unescapes : Bool → List Char → List Char → Prop
  | nil {lineStart : Bool} : Unescapes lineStart [] []
  | unescape {blanks behind text left : List Char} (escaped : StartsEscaped blanks behind text)
      (rest : Unescapes false behind left) : Unescapes true text (blanks ++ taskMarker ++ left)
  | keep {lineStart : Bool} {c : Char} {text left : List Char}
      (other : lineStart → ¬∃ blanks behind, StartsEscaped blanks behind (c :: text))
      (rest : Unescapes (c = '\n') text left) : Unescapes lineStart (c :: text) (c :: left)

/-! Single lines. -/

theorem unescapeTaskLine_of_startsEscaped (escaped : StartsEscaped blanks behind line) :
    unescapeTaskLine line = blanks ++ taskMarker ++ behind := by
  have stops : ∀ c ∈ (escapedTaskMarker ++ behind).head?, isBlank c = false := by
    simp [escapedTaskMarker, isBlank]
  obtain ⟨taken, dropped⟩ := span_append escaped.blank stops
  have starts : escapedTaskMarker.isPrefixOf (escapedTaskMarker ++ behind) :=
    List.isPrefixOf_iff_prefix.2 (List.prefix_append _ _)
  rw [unescapeTaskLine, escaped.eq, List.append_assoc, taken, dropped, if_pos starts,
    List.drop_left]

theorem unescapeTaskLine_of_not_startsEscaped
    (other : ¬∃ blanks behind, StartsEscaped blanks behind line) :
    unescapeTaskLine line = line := by
  refine if_neg fun starts => other ?_
  obtain ⟨behind, whole⟩ := List.isPrefixOf_iff_prefix.1 starts
  refine ⟨line.takeWhile isBlank, behind, ?_, ?_⟩
  · exact List.all_eq_true.1 List.all_takeWhile
  · rw [List.append_assoc, whole, List.takeWhile_append_dropWhile]

theorem unescapeTaskLine_cases (line : List Char) :
    (∃ blanks behind, StartsEscaped blanks behind line ∧
      unescapeTaskLine line = blanks ++ taskMarker ++ behind) ∨
    (¬(∃ blanks behind, StartsEscaped blanks behind line) ∧ unescapeTaskLine line = line) := by
  by_cases escaped : ∃ blanks behind, StartsEscaped blanks behind line
  · obtain ⟨blanks, behind, escaped⟩ := escaped
    exact .inl ⟨blanks, behind, escaped, unescapeTaskLine_of_startsEscaped escaped⟩
  · exact .inr ⟨escaped, unescapeTaskLine_of_not_startsEscaped escaped⟩

theorem not_startsEscaped_taskMarker (blank : ∀ c ∈ blanks, isBlank c) :
    ¬∃ others rest, StartsEscaped others rest (blanks ++ taskMarker ++ behind) := by
  rintro ⟨others, rest, escaped⟩
  have same := escaped.eq
  rw [List.append_assoc, List.append_assoc] at same
  obtain ⟨-, markers⟩ := span_append_inj blank escaped.blank (by simp [taskMarker, isBlank])
    (by simp [escapedTaskMarker, isBlank]) same
  simp [taskMarker, escapedTaskMarker] at markers

theorem unescapeTaskLine_unescapeTaskLine (line : List Char) :
    unescapeTaskLine (unescapeTaskLine line) = unescapeTaskLine line := by
  rcases unescapeTaskLine_cases line with ⟨blanks, behind, escaped, unescaped⟩ | ⟨-, same⟩
  · rw [unescaped]
    exact unescapeTaskLine_of_not_startsEscaped (not_startsEscaped_taskMarker escaped.blank)
  · rw [same, same]

theorem not_mem_unescapeTaskLine (single : '\n' ∉ line) : '\n' ∉ unescapeTaskLine line := by
  rcases unescapeTaskLine_cases line with ⟨blanks, behind, escaped, unescaped⟩ | ⟨-, same⟩
  · rw [escaped.eq] at single
    rw [unescaped]
    simp only [List.mem_append, not_or] at single ⊢
    exact ⟨⟨single.1.1, by decide⟩, single.2⟩
  · rwa [same]

/-! Texts. -/

theorem unescapeTaskMarkers_append (first second : List Char) :
    unescapeTaskMarkers (first ++ '\n' :: second) =
      unescapeTaskMarkers first ++ '\n' :: unescapeTaskMarkers second := by
  have filled (text : List Char) : (splitLines text).map unescapeTaskLine ≠ [] := by
    simpa using splitLines_ne_nil text
  rw [unescapeTaskMarkers, splitLines_append, List.map_append,
    joinLines_append (filled first) (filled second)]
  rfl

theorem unescapeTaskMarkers_of_single (single : '\n' ∉ line) :
    unescapeTaskMarkers line = unescapeTaskLine line := by
  rw [unescapeTaskMarkers, splitLines_of_not_mem single]
  rfl

theorem splitLines_unescapeTaskMarkers (text : List Char) :
    splitLines (unescapeTaskMarkers text) = (splitLines text).map unescapeTaskLine := by
  apply splitLines_joinLines
  · simpa using splitLines_ne_nil text
  · intro line member
    obtain ⟨source, inText, rfl⟩ := List.mem_map.1 member
    exact not_mem_unescapeTaskLine (not_mem_of_mem_splitLines inText)

theorem unescapeTaskMarkers_unescapeTaskMarkers (text : List Char) :
    unescapeTaskMarkers (unescapeTaskMarkers text) = unescapeTaskMarkers text := by
  rw [unescapeTaskMarkers, splitLines_unescapeTaskMarkers, List.map_map, unescapeTaskMarkers]
  congr 1
  exact List.map_congr_left fun line _ => unescapeTaskLine_unescapeTaskLine line

/-! The search in the whole text. -/

/-- The text with its task markers unescaped; its first line has one only if it begins where a line
begins. -/
def unescapeLines (lineStart : Bool) (text : List Char) : List Char :=
  match splitLines text with
  | [] => []
  | line :: lines =>
      joinLines ((if lineStart then unescapeTaskLine line else line) :: lines.map unescapeTaskLine)

theorem unescapeLines_eq (lineStart : Bool) (found : splitLines text = line :: lines) :
    unescapeLines lineStart text =
      joinLines
        ((if lineStart then unescapeTaskLine line else line) :: lines.map unescapeTaskLine) := by
  rw [unescapeLines, found]

theorem unescapeLines_true (text : List Char) :
    unescapeLines true text = unescapeTaskMarkers text := by
  obtain ⟨line, lines, found⟩ := List.exists_cons_of_ne_nil (splitLines_ne_nil text)
  rw [unescapeLines_eq true found, unescapeTaskMarkers, found]
  rfl

theorem unescapeLines_startsEscaped (escaped : StartsEscaped blanks behind text) :
    unescapeLines true text = blanks ++ taskMarker ++ unescapeLines false behind := by
  obtain ⟨line, lines, found⟩ := List.exists_cons_of_ne_nil (splitLines_ne_nil behind)
  have single : '\n' ∉ blanks ++ escapedTaskMarker := by
    intro member
    rcases List.mem_append.1 member with inBlanks | inMarker
    · exact absurd (escaped.blank '\n' inBlanks) (by decide)
    · exact absurd inMarker (by decide)
  have whole : splitLines text = (blanks ++ escapedTaskMarker ++ line) :: lines := by
    rw [escaped.eq, splitLines_append_of_not_mem single found]
  rw [unescapeLines_eq true whole, unescapeLines_eq false found, if_pos rfl,
    unescapeTaskLine_of_startsEscaped ⟨escaped.blank, rfl⟩, joinLines_append_cons]
  rfl

theorem unescapeLines_cons {c : Char}
    (other : lineStart → ¬∃ blanks behind, StartsEscaped blanks behind (c :: text)) :
    unescapeLines lineStart (c :: text) = c :: unescapeLines (c = '\n') text := by
  obtain ⟨line, lines, found⟩ := List.exists_cons_of_ne_nil (splitLines_ne_nil text)
  by_cases newline : c = '\n'
  · subst newline
    have first : (if lineStart then unescapeTaskLine [] else []) = [] := ite_self _
    rw [unescapeLines_eq lineStart (splitLines_newline text), first,
      decide_eq_true rfl, unescapeLines_true, unescapeTaskMarkers]
    exact joinLines_cons [] (by simpa using splitLines_ne_nil text)
  · have first : (if lineStart then unescapeTaskLine (c :: line) else c :: line) = c :: line := by
      split
      · next starts =>
          -- what a line begins with is what the text begins with
          obtain ⟨tail, whole⟩ := prefix_of_splitLines found
          refine unescapeTaskLine_of_not_startsEscaped fun ⟨blanks, behind, escaped⟩ => ?_
          refine other starts ⟨blanks, behind ++ tail, escaped.blank, ?_⟩
          rw [← whole, ← List.cons_append, escaped.eq, List.append_assoc _ behind tail]
      · rfl
    rw [unescapeLines_eq lineStart (splitLines_cons newline found), first, decide_eq_false newline,
      unescapeLines_eq false found]
    exact joinLines_append_cons [c] line _

theorem Unescapes.eq_unescapeLines (unescapes : Unescapes lineStart text left) :
    left = unescapeLines lineStart text := by
  induction unescapes with
  | @nil lineStart => cases lineStart <;> rfl
  | unescape escaped _ induction => rw [unescapeLines_startsEscaped escaped, induction]
  | keep other _ induction => rw [unescapeLines_cons other, induction]

theorem exists_unescapes (lineStart : Bool) (text : List Char) :
    ∃ left, Unescapes lineStart text left := by
  induction length : text.length using Nat.strongRecOn generalizing lineStart text with
  | ind n induction =>
      cases text with
      | nil => exact ⟨[], .nil⟩
      | cons c rest =>
          by_cases found : lineStart ∧ ∃ blanks behind, StartsEscaped blanks behind (c :: rest)
          · obtain ⟨rfl, blanks, behind, escaped⟩ := found
            have shorter : behind.length < n := by
              rw [← length, escaped.eq]
              simp only [List.length_append, escapedTaskMarker, List.length_cons]
              omega
            obtain ⟨left, unescapes⟩ := induction _ shorter false behind rfl
            exact ⟨_, .unescape escaped unescapes⟩
          · have shorter : rest.length < n := length ▸ Nat.lt_succ_self _
            obtain ⟨left, unescapes⟩ := induction _ shorter (c = '\n') rest rfl
            exact ⟨c :: left, .keep (not_and.1 found) unescapes⟩

theorem unescapes_iff : Unescapes true text left ↔ left = unescapeTaskMarkers text := by
  rw [← unescapeLines_true]
  constructor
  · exact Unescapes.eq_unescapeLines
  · rintro rfl
    obtain ⟨left, unescapes⟩ := exists_unescapes true text
    exact unescapes.eq_unescapeLines ▸ unescapes

/-- Task markers are unescaped line by line. The search for them in the whole text does to each line
what it does to the line alone: it takes the backslash out of an escaped marker that is behind
blanks only, and changes nothing else. Doing it twice is doing it once. -/
theorem unescapeTaskMarkers_isLocal :
    (∀ text left, Unescapes true text left ↔ left = unescapeTaskMarkers text) ∧
      (∀ first second, unescapeTaskMarkers (first ++ '\n' :: second) =
        unescapeTaskMarkers first ++ '\n' :: unescapeTaskMarkers second) ∧
      (∀ line, '\n' ∉ line →
        (∀ blanks behind, (∀ c ∈ blanks, c = ' ' ∨ c = '\t') →
          line = blanks ++ ['-', ' ', '\\', '[', ' ', ']'] ++ behind →
          unescapeTaskMarkers line = blanks ++ ['-', ' ', '[', ' ', ']'] ++ behind) ∧
        ((¬∃ blanks behind, (∀ c ∈ blanks, c = ' ' ∨ c = '\t') ∧
            line = blanks ++ ['-', ' ', '\\', '[', ' ', ']'] ++ behind) →
          unescapeTaskMarkers line = line)) ∧
      ∀ text, unescapeTaskMarkers (unescapeTaskMarkers text) = unescapeTaskMarkers text := by
  have blank_iff (c : Char) : isBlank c ↔ c = ' ' ∨ c = '\t' := by simp [isBlank]
  refine ⟨fun _ _ => unescapes_iff, unescapeTaskMarkers_append, fun line single => ⟨?_, ?_⟩,
    unescapeTaskMarkers_unescapeTaskMarkers⟩
  · intro blanks behind blank whole
    rw [unescapeTaskMarkers_of_single single]
    exact unescapeTaskLine_of_startsEscaped
      ⟨fun c member => (blank_iff c).2 (blank c member), whole⟩
  · intro other
    rw [unescapeTaskMarkers_of_single single]
    apply unescapeTaskLine_of_not_startsEscaped
    rintro ⟨blanks, behind, escaped⟩
    exact other
      ⟨blanks, behind, fun c member => (blank_iff c).1 (escaped.blank c member), escaped.eq⟩

theorem unescapeTaskMarkers_isLocal_twice :
    let first := "\t- \\[ ]- \\[ ]".toList
    let second := "- \\\\[ ]".toList
    '\n' ∉ first ∧ unescapeTaskMarkers first = "\t- [ ]- \\[ ]".toList ∧
      '\n' ∉ second ∧ unescapeTaskMarkers second = second ∧
      unescapeTaskMarkers (first ++ '\n' :: second) = "\t- [ ]- \\[ ]\n- \\\\[ ]".toList ∧
      Unescapes true (first ++ '\n' :: second) "\t- [ ]- \\[ ]\n- \\\\[ ]".toList := by
  intro first second
  obtain ⟨search, append, each, -⟩ := unescapeTaskMarkers_isLocal
  have singleFirst : '\n' ∉ first := by decide
  have singleSecond : '\n' ∉ second := by decide
  have unescaped : unescapeTaskMarkers first = "\t- [ ]- \\[ ]".toList :=
    (each first singleFirst).1 ['\t'] "- \\[ ]".toList (by simp) rfl
  have kept : unescapeTaskMarkers second = second := by
    apply (each second singleSecond).2
    rintro ⟨blanks, behind, blank, whole⟩
    cases blanks with
    | nil =>
        have fourth : second[3]? = some '[' := by
          rw [whole]
          rfl
        exact absurd fourth (by decide)
    | cons c blanks =>
        have dash : some '-' = some c := (by decide : some '-' = second.head?).trans (by
          rw [whole]
          rfl)
        cases dash
        exact absurd (blank '-' List.mem_cons_self) (by decide)
  have both : unescapeTaskMarkers (first ++ '\n' :: second) =
      "\t- [ ]- \\[ ]\n- \\\\[ ]".toList := by
    rw [append, unescaped, kept]
    rfl
  exact ⟨singleFirst, unescaped, singleSecond, kept, both, (search _ _).2 both.symm⟩

end EditorMarkdown.Text
