import EditorMarkdown.Proofs.Writer.Interruption

/-!
Lists side by side. Readers make one list of two if the signs in the markers of their items are the
same. The writer gives a list that follows one of its flavour the other sign, whatever sign that one
has, so lists with one sign follow each other where there are more than two.
-/

namespace EditorMarkdown.Writer

open Markdown (Node)

/-! Markers. -/

/-- What tells the items of a list from those of another list: the bullet, or what stands behind
the number. -/
def Options.sign (options : Options) (ordered alternate : Bool) : Char :=
  if ordered then if alternate then ')' else '.'
  else if alternate then options.bulletOther else options.bullet

variable {options : Options} {sign : Char} {ordered : Bool} {text : List Char}

def signedMarker (sign : Char) (ordered : Bool) (number : UInt32) : List Char :=
  (if ordered then (toString number.toNat).toList else []) ++ [sign, ' ']

theorem marker_eq (options : Options) (ordered alternate : Bool) (number : UInt32) :
    options.marker ordered alternate number =
      signedMarker (options.sign ordered alternate) ordered number := by
  cases ordered <;> rfl

theorem sign_ne_iff (differ : options.bullet ≠ options.bulletOther) (ordered alternate : Bool) :
    options.sign ordered alternate ≠ options.sign ordered true ↔ alternate = false := by
  cases ordered <;> cases alternate <;> simp [Options.sign, differ]

theorem sign_delimits (options : Options) (alternate : Bool) :
    ordered → (options.sign ordered alternate).isDigit = false := by
  rintro rfl
  cases alternate <;> simp [Options.sign]

/-- The sign that a reader finds in the first marker of a list. -/
def signOf (ordered : Bool) (text : List Char) : Option Char :=
  (if ordered then text.dropWhile Char.isDigit else text).head?

/-! Lists. -/

/-- A text of items that all have one sign, the first of them with a given number. -/
inductive Listed (next : UInt32 → UInt32) (sign : Char) (ordered : Bool) :
    UInt32 → List Char → Prop
  | single (number : UInt32) (checked : Option Bool) (body : List Char) :
      Listed next sign ordered number
        (itemText (signedMarker sign ordered number) checked body)
  | cons (number : UInt32) (checked : Option Bool) (body : List Char) {lead rest : List Char}
      (parted : lead = ['\n'] ∨ lead = ['\n', '\n'])
      (others : Listed next sign ordered (next number) rest) :
      Listed next sign ordered number
        (itemText (signedMarker sign ordered number) checked body ++ (lead ++ rest))

theorem signOf_signedMarker (delimits : ordered → sign.isDigit = false) (number : UInt32)
    (rest : List Char) : signOf ordered (signedMarker sign ordered number ++ rest) = some sign := by
  cases ordered with
  | false => rfl
  | true =>
      have digits : ∀ c ∈ (toString number.toNat).toList, c.isDigit := by
        intro c member
        have inDigits : c ∈ Nat.toDigits 10 number.toNat := by simpa [toString] using member
        exact Nat.isDigit_of_mem_toDigits (by decide) (by decide) inDigits
      rw [signOf, signedMarker, if_pos rfl, if_pos rfl, List.append_assoc,
        List.dropWhile_append_of_pos digits]
      simp [delimits rfl]

theorem Listed.signOf_eq {next : UInt32 → UInt32} {number : UInt32}
    (listed : Listed next sign ordered number text)
    (delimits : ordered → sign.isDigit = false) : signOf ordered text = some sign := by
  cases listed with
  | single _ checked body =>
      rw [itemText, List.append_assoc]
      exact signOf_signedMarker delimits number _
  | cons _ checked body parted others =>
      rw [itemText, List.append_assoc, List.append_assoc]
      exact signOf_signedMarker delimits number _

theorem listed_writeItems (options : Options) (scope : Scope) (ordered alternate spread : Bool)
    {items : List Node} (filled : items.any isItem) (before : List Char) (number : UInt32) :
    ∃ text, Listed (options.next ordered) (options.sign ordered alternate) ordered number text ∧
      ∀ buffer,
      (writeItems options scope ordered alternate spread before number items buffer).text =
        buffer.text ++ (before ++ text) := by
  induction items generalizing before number with
  | nil => cases filled
  | cons node rest induction =>
      cases node with
      | listItem itemSpread checked children =>
          let body := (writeBlocks options (scope.enter .listItem) (!spread && !itemSpread) none
            children .empty).text
          let marker := signedMarker (options.sign ordered alternate) ordered number
          let item := itemText marker checked body
          let lead := if spread then ['\n', '\n'] else ['\n']
          have step : ∀ buffer, writeItems options scope ordered alternate spread before number
              (.listItem itemSpread checked children :: rest) buffer =
                writeItems options scope ordered alternate spread lead
                  (options.next ordered number) rest ((buffer.push before).push item) := by
            intro buffer
            rw [writeItems, marker_eq]
          cases anyOther : rest.any isItem with
          | true =>
              obtain ⟨text, listed, written⟩ :=
                induction anyOther lead (options.next ordered number)
              have parted : lead = ['\n'] ∨ lead = ['\n', '\n'] := by
                cases spread
                · exact .inl rfl
                · exact .inr rfl
              refine ⟨item ++ (lead ++ text), .cons number checked body parted listed, ?_⟩
              intro buffer
              rw [step, written]
              simp only [Buffer.text_push, List.append_assoc]
          | false =>
              have none : rest.find? isItem = none := by simpa using anyOther
              refine ⟨item, .single number checked body, ?_⟩
              intro buffer
              rw [step, writeItems_of_find?_none _ _ _ _ _ none]
              simp only [Buffer.text_push, List.append_assoc]
      | _ =>
          simp only [writeItems]
          exact induction filled before number

def listText (options : Options) (scope : Scope) (alternate : Bool) (list : Node) : List Char :=
  (writeNode options scope alternate list .empty).text

theorem listed_listText (bare : options.handlers = []) (scope : Scope) (ordered alternate : Bool)
    (start : Option UInt32) (spread : Bool) {items : List Node} (filled : items.any isItem) :
    let list := Node.list ordered start spread items
    Listed (options.next ordered) (options.sign ordered alternate) ordered (firstNumber start)
        (listText options scope alternate list) ∧
      ∀ buffer, (writeNode options scope alternate list buffer).text =
        buffer.text ++ listText options scope alternate list := by
  intro list
  obtain ⟨text, listed, written⟩ := listed_writeItems options
    (if alternate then scope else scope.enter .list) ordered alternate spread filled []
    (firstNumber start)
  have whole : ∀ buffer,
      (writeNode options scope alternate list buffer).text = buffer.text ++ text := by
    intro buffer
    simp only [list, writeNode, handled?_of_bare bare, ite_self]
    exact written buffer
  have alone : listText options scope alternate list = text := whole .empty
  rw [alone]
  exact ⟨listed, whole⟩

/-! Blocks. -/

/-- Of two lists of one flavour side by side, the second has the other sign, and the first has it
too if it follows a list of that flavour. So they have different signs just if it does not. A run
that checks its sums stops if the numbers of a list run out. -/
theorem adjacent_lists_signs (bare : options.handlers = [])
    (differ : options.bullet ≠ options.bulletOther) (sums : Sums) (scope : Scope) (tight : Bool)
    (before after : List Node) (ordered : Bool) (start nextStart : Option UInt32)
    (spread nextSpread : Bool) {items nextItems : List Node} (filled : items.any isItem)
    (nextFilled : nextItems.any isItem) (buffer : Buffer) :
    let first := Node.list ordered start spread items
    let second := Node.list ordered nextStart nextSpread nextItems
    let blocks := before ++ first :: second :: after
    let alternate := continuesList before.getLast? first
    let one := listText options scope alternate first
    let two := listText options scope true second
    (∃ written rest, (∀ c ∈ rest.head?, c = '\n') ∧
      written.text = (writeBlocks options scope tight none before buffer).text ++
        (separator tight before.getLast? first ++ one) ++
          (separator tight (some first) second ++ two) ++ rest ∧
      (runBlocks sums options scope tight none blocks buffer = .ok written ↔
        ¬(sums = .checked ∧ NumbersRunOut options blocks))) ∧
      (runBlocks sums options scope tight none blocks buffer = .error .overflow ↔
        sums = .checked ∧ NumbersRunOut options blocks) ∧
      Listed (options.next ordered) (options.sign ordered alternate) ordered (firstNumber start)
        one ∧
      Listed (options.next ordered) (options.sign ordered true) ordered (firstNumber nextStart)
        two ∧
      (signOf ordered one ≠ signOf ordered two ↔ alternate = false) := by
  intro first second blocks alternate one two
  obtain ⟨listed, written⟩ := listed_listText bare scope ordered alternate start spread filled
  obtain ⟨nextListed, nextWritten⟩ :=
    listed_listText bare scope ordered true nextStart nextSpread nextFilled
  have follows : continuesList (some first) second = true := by simp [first, second, continuesList]
  refine ⟨?_, ?_, listed, nextListed, ?_⟩
  · have behind := text_writeBlocks_some options scope tight second after
    obtain ⟨rest, newline, whole⟩ := behind (writeNode options scope true second
      ((writeNode options scope alternate first
        ((writeBlocks options scope tight none before buffer).push
          (separator tight before.getLast? first))).push (separator tight (some first) second)))
    refine ⟨writeBlocks options scope tight none blocks buffer, rest, newline, ?_, ?_⟩
    · rw [writeBlocks_append, Option.or_none, writeBlocks, writeBlocks, follows]
      refine whole.trans ?_
      rw [nextWritten, Buffer.text_push, written, Buffer.text_push]
      simp only [List.append_assoc, one, two, first, second, alternate]
    · rw [runBlocks, Sums.guard_eq_ok_iff, blocksOverflow_iff_of_bare bare, and_iff_right rfl]
  · rw [runBlocks, Sums.guard_eq_error_iff, blocksOverflow_iff_of_bare bare, and_iff_right rfl]
  · rw [listed.signOf_eq (sign_delimits options alternate),
      nextListed.signOf_eq (sign_delimits options true), Ne, Option.some_inj]
    exact sign_ne_iff differ ordered alternate

def shortList (ordered : Bool) (value : String) : Node :=
  .list ordered none false [.listItem false none [.paragraph [.text value]]]

theorem adjacent_lists_signs_two :
    Options.standard.handlers = [] ∧ Options.standard.bullet ≠ Options.standard.bulletOther ∧
      (shortList true "b").children.any isItem ∧ (shortList true "c").children.any isItem ∧
      signOf true (listText .standard ⟨[]⟩ false (shortList true "b")) ≠
        signOf true (listText .standard ⟨[]⟩ true (shortList true "c")) := by
  have bare : Options.standard.handlers = [] := rfl
  have differ : Options.standard.bullet ≠ Options.standard.bulletOther := by decide
  have filled : (shortList true "b").children.any isItem := rfl
  have nextFilled : (shortList true "c").children.any isItem := rfl
  refine ⟨bare, differ, filled, nextFilled, ?_⟩
  have signs := adjacent_lists_signs bare differ .checked ⟨[]⟩ false [shortList false "a"] [] true
    none none false false filled nextFilled .empty
  exact signs.2.2.2.2.2 rfl

/-- The third of three lists has the sign of the second. -/
theorem adjacent_lists_merge :
    Markdown.toText .standard [shortList false "a", shortList false "b", shortList false "c"] =
        "- a\n\n* b\n\n* c\n" ∧
      Markdown.toText .standard [shortList true "a", shortList true "b", shortList true "c"] =
        "1. a\n\n1) b\n\n1) c\n" ∧
      ¬∀ (before : List Node) (ordered : Bool) (value nextValue : String),
        let first := shortList ordered value
        let alternate := continuesList before.getLast? first
        signOf ordered (listText .standard ⟨[.root]⟩ alternate first) ≠
          signOf ordered (listText .standard ⟨[.root]⟩ true (shortList ordered nextValue)) := by
  refine ⟨by decide +kernel, by decide +kernel, ?_⟩
  intro differ
  exact differ [shortList false "a"] false "b" "c" (by decide +kernel)

end EditorMarkdown.Writer
