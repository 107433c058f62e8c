/-!
Bars in a line. A bar right behind a backslash is part of the text, and every other one cuts the
line. Both the number of such bars and the pieces between them depend on what stands before a text
only through whether a backslash stands right before it.
-/

namespace EditorMarkdown.Text

def endsBehind (behind : Bool) : List Char → Bool
  | [] => behind
  | c :: rest => endsBehind (c = '\\') rest

/-- How many bars of a text do not stand right behind a backslash; `behind` tells whether a
backslash stands right before the text. -/
def bareBars (behind : Bool) : List Char → Nat
  | [] => 0
  | c :: rest => (if c = '|' && !behind then 1 else 0) + bareBars (c = '\\') rest

/-- The pieces of a text between its bars that do not stand right behind a backslash. -/
def cutBars (behind : Bool) : List Char → List (List Char)
  | [] => [[]]
  | c :: rest =>
      if c = '|' && !behind then [] :: cutBars false rest
      else
        match cutBars (c = '\\') rest with
        | [] => [[c]]
        | piece :: pieces => (c :: piece) :: pieces

variable {behind : Bool} {text more piece rest : List Char} {c : Char}

/-! Texts one behind the other. -/

@[simp] theorem endsBehind_nil : endsBehind behind [] = behind := rfl

@[simp] theorem endsBehind_cons : endsBehind behind (c :: rest) = endsBehind (c = '\\') rest := rfl

theorem endsBehind_concat (behind : Bool) (text : List Char) (c : Char) :
    endsBehind behind (text ++ [c]) = decide (c = '\\') := by
  induction text generalizing behind with
  | nil => rfl
  | cons d text induction => exact induction _

@[simp] theorem bareBars_nil : bareBars behind [] = 0 := rfl

theorem bareBars_cons :
    bareBars behind (c :: rest) =
      (if c = '|' && !behind then 1 else 0) + bareBars (c = '\\') rest := rfl

theorem bareBars_cons_of_ne (apart : c ≠ '|') :
    bareBars behind (c :: rest) = bareBars (c = '\\') rest := by
  simp [bareBars, apart]

@[simp] theorem bareBars_bar : bareBars false ('|' :: rest) = bareBars false rest + 1 := by
  simp [bareBars, Nat.add_comm]

theorem bareBars_append (behind : Bool) (text more : List Char) :
    bareBars behind (text ++ more) =
      bareBars behind text + bareBars (endsBehind behind text) more := by
  induction text generalizing behind with
  | nil => simp
  | cons c text induction =>
      rw [List.cons_append, bareBars_cons, bareBars_cons, induction, endsBehind_cons]
      omega

theorem bareBars_le (behind : Bool) (text : List Char) :
    bareBars behind text ≤ bareBars false text := by
  cases text with
  | nil => simp
  | cons c text =>
      rw [bareBars_cons, bareBars_cons]
      cases behind <;> simp

theorem bareBars_of_not_mem (behind : Bool) (barless : '|' ∉ text) : bareBars behind text = 0 := by
  induction text generalizing behind with
  | nil => rfl
  | cons c text induction =>
      obtain ⟨first, others⟩ := not_or.1 (mt List.mem_cons.2 barless)
      rw [bareBars_cons_of_ne (Ne.symm first)]
      exact induction _ others

/-- A text has as many bars when each of its characters is written otherwise, if no character makes
or takes a bar and only backslashes are behind backslashes. -/
theorem bareBars_flatMap {spell : Char → List Char}
    (bars : ∀ behind c, bareBars behind (spell c) = bareBars behind [c])
    (ends : ∀ behind c, endsBehind behind (spell c) = decide (c = '\\'))
    (behind : Bool) (text : List Char) :
    bareBars behind (text.flatMap spell) = bareBars behind text := by
  induction text generalizing behind with
  | nil => rfl
  | cons c text induction =>
      have whole : bareBars behind (c :: text) =
          bareBars behind [c] + bareBars (c = '\\') text :=
        bareBars_append behind [c] text
      rw [List.flatMap_cons, bareBars_append, bars, ends, induction, whole]

/-! Cutting. -/

theorem cutBars_ne_nil (behind : Bool) (text : List Char) : cutBars behind text ≠ [] := by
  cases text with
  | nil => simp [cutBars]
  | cons c text =>
      unfold cutBars
      split
      · simp
      · split <;> simp

@[simp] theorem cutBars_bar : cutBars false ('|' :: rest) = [] :: cutBars false rest := by
  simp [cutBars]

theorem cutBars_cons {pieces : List (List Char)} (inside : (c = '|' && !behind) = false)
    (found : cutBars (c = '\\') rest = piece :: pieces) :
    cutBars behind (c :: rest) = (c :: piece) :: pieces := by
  simp [cutBars, inside, found]

theorem length_cutBars (behind : Bool) (text : List Char) :
    (cutBars behind text).length = bareBars behind text + 1 := by
  induction text generalizing behind with
  | nil => rfl
  | cons c text induction =>
      cases bare : (decide (c = '|') && !behind) with
      | true =>
          obtain ⟨rfl, rfl⟩ : c = '|' ∧ behind = false := by simpa using bare
          simp [induction]
      | false =>
          obtain ⟨piece, pieces, found⟩ :=
            List.exists_cons_of_ne_nil (cutBars_ne_nil (c = '\\') text)
          have others := induction (c = '\\')
          rw [found] at others
          rw [cutBars_cons bare found, bareBars_cons, bare, if_neg Bool.false_ne_true, Nat.zero_add]
          exact others

theorem cutBars_append_bar (behind : Bool) (barless : bareBars behind piece = 0)
    (solid : endsBehind behind piece = false) (rest : List Char) :
    cutBars behind (piece ++ '|' :: rest) = piece :: cutBars false rest := by
  induction piece generalizing behind with
  | nil =>
      rw [endsBehind_nil] at solid
      subst solid
      exact cutBars_bar
  | cons c piece induction =>
      rw [bareBars_cons, Nat.add_eq_zero_iff] at barless
      have inside : (decide (c = '|') && !behind) = false := by
        apply eq_false_of_ne_true
        intro bare
        simp [bare] at barless
      exact cutBars_cons inside (induction _ barless.2 solid)

/-! Pieces between bars. -/

def barLine (pieces : List (List Char)) : List Char :=
  '|' :: pieces.flatMap fun piece => piece ++ ['|']

section

variable {pieces : List (List Char)} (solid : ∀ piece ∈ pieces, endsBehind false piece = false)

include solid

theorem bareBars_flatten_eq_zero_iff :
    bareBars false pieces.flatten = 0 ↔ ∀ piece ∈ pieces, bareBars false piece = 0 := by
  induction pieces with
  | nil => simp
  | cons piece pieces induction =>
      have others := induction fun piece member => solid piece (List.mem_cons_of_mem _ member)
      rw [List.flatten_cons, bareBars_append, solid piece List.mem_cons_self,
        Nat.add_eq_zero_iff, others, List.forall_mem_cons]

theorem bareBars_barLine :
    bareBars false (barLine pieces) = bareBars false pieces.flatten + pieces.length + 1 := by
  rw [barLine, bareBars_bar]
  congr 1
  induction pieces with
  | nil => rfl
  | cons piece pieces induction =>
      have others := induction fun piece member => solid piece (List.mem_cons_of_mem _ member)
      have first := solid piece List.mem_cons_self
      rw [List.flatMap_cons, List.append_assoc, bareBars_append, first, List.singleton_append,
        bareBars_bar, others, List.flatten_cons, bareBars_append, first, List.length_cons]
      omega

theorem cutBars_barLine (barless : ∀ piece ∈ pieces, bareBars false piece = 0) :
    cutBars false (barLine pieces) = [] :: pieces ++ [[]] := by
  rw [barLine, cutBars_bar, List.cons_append]
  congr 1
  induction pieces with
  | nil => rfl
  | cons piece pieces induction =>
      have others := induction (fun piece member => solid piece (List.mem_cons_of_mem _ member))
        (fun piece member => barless piece (List.mem_cons_of_mem _ member))
      rw [List.flatMap_cons, List.append_assoc, List.singleton_append,
        cutBars_append_bar false (barless piece List.mem_cons_self)
          (solid piece List.mem_cons_self), others, List.cons_append]

end

theorem mem_barLine {pieces : List (List Char)} (other : c ≠ '|') :
    c ∈ barLine pieces ↔ ∃ piece ∈ pieces, c ∈ piece := by
  simp [barLine, other]

theorem mem_cutBars (behind : Bool) (member : c ∈ text) :
    c = '|' ∨ ∃ piece ∈ cutBars behind text, c ∈ piece := by
  induction text generalizing behind with
  | nil => cases member
  | cons d text induction =>
      cases bare : (decide (d = '|') && !behind) with
      | true =>
          obtain ⟨rfl, rfl⟩ : d = '|' ∧ behind = false := by simpa using bare
          rcases List.mem_cons.1 member with rfl | inText
          · exact .inl rfl
          · rcases induction false inText with same | ⟨piece, inPieces, inPiece⟩
            · exact .inl same
            · refine .inr ⟨piece, ?_, inPiece⟩
              rw [cutBars_bar]
              exact List.mem_cons_of_mem _ inPieces
      | false =>
          obtain ⟨first, pieces, found⟩ :=
            List.exists_cons_of_ne_nil (cutBars_ne_nil (d = '\\') text)
          rw [cutBars_cons bare found]
          rcases List.mem_cons.1 member with rfl | inText
          · exact .inr ⟨_, List.mem_cons_self, List.mem_cons_self⟩
          · rcases induction (d = '\\') inText with same | ⟨piece, inPieces, inPiece⟩
            · exact .inl same
            · rw [found] at inPieces
              rcases List.mem_cons.1 inPieces with rfl | others
              · exact .inr ⟨_, List.mem_cons_self, List.mem_cons_of_mem _ inPiece⟩
              · exact .inr ⟨piece, List.mem_cons_of_mem _ others, inPiece⟩

end EditorMarkdown.Text
