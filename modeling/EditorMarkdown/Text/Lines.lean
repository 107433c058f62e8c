/-!
Texts as lists of lines, and the trimming and prefixing of lines.
-/

namespace EditorMarkdown.Text

def splitLines : List Char → List (List Char)
  | [] => [[]]
  | c :: rest =>
      if c = '\n' then [] :: splitLines rest
      else
        match splitLines rest with
        | [] => [[c]]
        | line :: lines => (c :: line) :: lines

def joinLines : List (List Char) → List Char
  | [] => []
  | [line] => line
  | line :: next :: lines => line ++ '\n' :: joinLines (next :: lines)

theorem splitLines_ne_nil (text : List Char) : splitLines text ≠ [] := by
  cases text with
  | nil => simp [splitLines]
  | cons c rest =>
      simp only [splitLines]
      split
      · simp
      · split <;> simp

@[simp] theorem splitLines_nil : splitLines [] = [[]] := rfl

@[simp] theorem splitLines_newline (rest : List Char) :
    splitLines ('\n' :: rest) = [] :: splitLines rest := by
  simp [splitLines]

@[simp] theorem joinLines_nil : joinLines [] = [] := rfl

@[simp] theorem joinLines_singleton (line : List Char) : joinLines [line] = line := rfl

theorem joinLines_cons {lines : List (List Char)} (line : List Char) (h : lines ≠ []) :
    joinLines (line :: lines) = line ++ '\n' :: joinLines lines := by
  cases lines with
  | nil => contradiction
  | cons next rest => rfl

@[simp] theorem joinLines_splitLines (text : List Char) : joinLines (splitLines text) = text := by
  induction text with
  | nil => rfl
  | cons c rest ih =>
      by_cases h : c = '\n'
      · subst h
        rw [splitLines_newline, joinLines_cons _ (splitLines_ne_nil rest), ih, List.nil_append]
      · cases e : splitLines rest with
        | nil => exact absurd e (splitLines_ne_nil rest)
        | cons line lines =>
            rw [e] at ih
            simp only [splitLines, h, if_false, e]
            cases lines with
            | nil => simpa using ih
            | cons next lines => simpa [joinLines] using ih

def trimEndWhile (drop : Char → Bool) (text : List Char) : List Char :=
  (text.reverse.dropWhile drop).reverse

def trimWhile (drop : Char → Bool) (text : List Char) : List Char :=
  trimEndWhile drop (text.dropWhile drop)

def dropFinalNewline (text : List Char) : List Char :=
  if text.getLast? = some '\n' then text.dropLast else text

/-- Puts `lead` before every line that is not empty and `bare` in place of every empty one. -/
def prefixLines (lead bare text : List Char) : List Char :=
  joinLines ((splitLines text).map fun line => if line.isEmpty then bare else lead ++ line)

/-- Puts `lead` before every line but the first, unless the line is empty. -/
def indentLines (lead text : List Char) : List Char :=
  match splitLines text with
  | [] => []
  | line :: lines =>
      joinLines (line :: lines.map fun next => if next.isEmpty then next else lead ++ next)

def containsPart (part : List Char) : List Char → Bool
  | [] => part.isEmpty
  | c :: rest => part.isPrefixOf (c :: rest) || containsPart part rest

/-- The text with every occurrence of the non-empty `part` replaced, found from the left
without overlaps; `wait` counts the characters of an occurrence that are still to be passed. -/
private def replaceFrom (part replacement : List Char) : Nat → List Char → List Char
  | _, [] => []
  | wait + 1, _ :: rest => replaceFrom part replacement wait rest
  | 0, c :: rest =>
      if part.isPrefixOf (c :: rest) then
        replacement ++ replaceFrom part replacement (part.length - 1) rest
      else c :: replaceFrom part replacement 0 rest

/-- The text with every occurrence of `part`, found from the left without overlaps, replaced. -/
def replacePart (part replacement text : List Char) : List Char :=
  if part.isEmpty then text else replaceFrom part replacement 0 text

section

variable {part : List Char} (replacement : List Char)

private theorem replaceFrom_eq_drop (wait : Nat) (text : List Char) :
    replaceFrom part replacement wait text = replaceFrom part replacement 0 (text.drop wait) := by
  induction wait generalizing text with
  | zero => rfl
  | succ wait induction =>
      cases text with
      | nil => rfl
      | cons c rest => exact induction rest

private theorem replacePart_eq (filled : part ≠ []) (text : List Char) :
    replacePart part replacement text = replaceFrom part replacement 0 text :=
  if_neg fun empty => filled (List.isEmpty_iff.1 empty)

@[simp] theorem replacePart_nil : replacePart part replacement [] = [] := by
  cases part <;> rfl

theorem replacePart_append (filled : part ≠ []) (rest : List Char) :
    replacePart part replacement (part ++ rest) =
      replacement ++ replacePart part replacement rest := by
  rw [replacePart_eq _ filled, replacePart_eq _ filled]
  obtain ⟨c, tail, rfl⟩ := List.exists_cons_of_ne_nil filled
  have starts : (c :: tail).isPrefixOf (c :: (tail ++ rest)) :=
    List.isPrefixOf_iff_prefix.2 (List.prefix_append (c :: tail) rest)
  rw [List.cons_append, replaceFrom, if_pos starts, replaceFrom_eq_drop]
  simp

theorem replacePart_cons (filled : part ≠ []) {c : Char} {rest : List Char}
    (other : ¬part <+: c :: rest) :
    replacePart part replacement (c :: rest) = c :: replacePart part replacement rest := by
  rw [replacePart_eq _ filled, replacePart_eq _ filled, replaceFrom,
    if_neg fun starts => other (List.isPrefixOf_iff_prefix.1 starts)]

end

end EditorMarkdown.Text
