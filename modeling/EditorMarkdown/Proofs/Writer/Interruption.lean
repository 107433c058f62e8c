import EditorMarkdown.Proofs.Writer.Composition
import EditorMarkdown.Proofs.Writer.Underline

/-!
Blocks right below a line of text. Where only a newline stands between text and a block, a reader
takes a line of dashes or equals signs for the underline of a heading, and the paragraph goes on
with a list that does not start with the number one or starts with an empty item. The writer looks
at none of this, so it depends on the block whether it is read again.
-/

namespace EditorMarkdown.Writer

open Markdown (Node)
open Text (isBlank splitLines span_append_inj)

variable {line text : List Char}

/-! The first line of an item. -/

def HasContent (line : List Char) : Prop := ∃ c ∈ line, isBlank c = false

def numberOf (digits : List Char) : Nat :=
  digits.foldl (fun number d => number * 10 + (d.toNat - '0'.toNat)) 0

/-- The lines that start a list even below a line of text: a bullet, or a marker with the number
one, and more than blanks behind it. -/
inductive InterruptsParagraph : List Char → Prop
  | bullet {c b : Char} {rest : List Char} (isBullet : c ∈ ['-', '+', '*']) (spaced : isBlank b)
      (filled : HasContent rest) : InterruptsParagraph (c :: b :: rest)
  | ordered {digits : List Char} {c b : Char} {rest : List Char} (high : digits.length ≤ 9)
      (all : ∀ d ∈ digits, d.isDigit) (one : numberOf digits = 1) (delimits : c = '.' ∨ c = ')')
      (spaced : isBlank b) (filled : HasContent rest) :
      InterruptsParagraph (digits ++ c :: b :: rest)

theorem numberOf_toDigits (number : Nat) : numberOf (Nat.toDigits 10 number) = number := by
  induction number using Nat.strongRecOn with
  | ind number induction =>
      rcases Nat.lt_or_ge number 10 with small | large
      · rw [Nat.toDigits_of_lt_base small]
        simp [numberOf, Nat.toNat_digitChar_of_lt_ten small]
      · have shorter := induction (number / 10) (by omega)
        have last : number % 10 < 10 := Nat.mod_lt _ (by decide)
        rw [numberOf] at shorter ⊢
        rw [Nat.toDigits_of_base_le (by decide) large, List.foldl_append, shorter]
        have zero : '0'.toNat = 48 := rfl
        rw [List.foldl_cons, List.foldl_nil, Nat.toNat_digitChar_of_lt_ten last]
        omega

theorem isUnderline_bullet_iff : IsUnderline ('-' :: ' ' :: line) ↔ ¬HasContent line := by
  constructor
  · rintro ⟨c, n, blanks, -, blank, whole⟩ ⟨d, member, filled⟩
    cases n with
    | zero =>
        obtain ⟨-, rfl⟩ : '-' = c ∧ ' ' :: line = blanks := by simpa using whole
        simp [blank d (List.mem_cons_of_mem _ member)] at filled
    | succ n =>
        obtain ⟨dash, space, -⟩ : '-' = c ∧ ' ' = c ∧ line = List.replicate n c ++ blanks := by
          simpa [List.replicate_succ] using whole
        exact absurd (dash.trans space.symm) (by decide)
  · intro blankLine
    refine ⟨'-', 0, ' ' :: line, .inr rfl, fun c member => ?_, rfl⟩
    rcases List.mem_cons.1 member with rfl | inLine
    · rfl
    · exact eq_true_of_ne_false fun filled => blankLine ⟨c, inLine, filled⟩

theorem interruptsParagraph_bullet_iff :
    InterruptsParagraph ('-' :: ' ' :: line) ↔ HasContent line := by
  refine ⟨fun interrupts => ?_, fun filled => .bullet (by decide) rfl filled⟩
  generalize whole : '-' :: ' ' :: line = text at interrupts
  cases interrupts with
  | bullet isBullet spaced filled =>
      obtain ⟨-, -, rfl⟩ : _ ∧ _ ∧ line = _ := by simpa using whole
      exact filled
  | @ordered digits c b rest high all one delimits spaced filled =>
      exfalso
      cases digits with
      | nil => cases one
      | cons d digits =>
          have isDigit := all d List.mem_cons_self
          rw [← (List.cons.inj whole).1] at isDigit
          cases isDigit

theorem interruptsParagraph_ordered_iff (number : Nat) :
    InterruptsParagraph ((toString number).toList ++ '.' :: ' ' :: line) ↔
      number = 1 ∧ HasContent line := by
  have digits : (toString number).toList = Nat.toDigits 10 number := by simp [toString]
  have all : ∀ d ∈ Nat.toDigits 10 number, d.isDigit := fun d member =>
    Nat.isDigit_of_mem_toDigits (by decide) (by decide) member
  have stops : ∀ d ∈ ('.' :: ' ' :: line).head?, d.isDigit = false := by simp
  rw [digits]
  constructor
  · intro interrupts
    generalize whole : Nat.toDigits 10 number ++ '.' :: ' ' :: line = text at interrupts
    cases interrupts with
    | @bullet c b rest isBullet spaced filled =>
        have other : ∀ d ∈ (c :: b :: rest).head?, d.isDigit = false := by
          have bullets : ∀ d ∈ ['-', '+', '*'], d.isDigit = false := by simp
          simpa using bullets c isBullet
        have nothing : ∀ d ∈ ([] : List Char), d.isDigit := by simp
        have none := (span_append_inj all nothing stops other whole).1
        exact absurd none Nat.toDigits_ne_nil
    | @ordered others c b rest high allOthers one delimits spaced filled =>
        -- the digits are those of the number, which has the value of its digits
        have other : ∀ d ∈ (c :: b :: rest).head?, d.isDigit = false := by
          rcases delimits with rfl | rfl <;> simp
        obtain ⟨rfl, behind⟩ := span_append_inj all allOthers stops other whole
        obtain ⟨-, -, rfl⟩ : '.' = c ∧ ' ' = b ∧ line = rest := by simpa using behind
        exact ⟨(numberOf_toDigits number).symm.trans one, filled⟩
  · rintro ⟨rfl, filled⟩
    have one : InterruptsParagraph (['1'] ++ '.' :: ' ' :: line) :=
      .ordered (by decide) (by simp) rfl (.inl rfl) rfl filled
    exact one

section

variable (ordered : Bool) (number : UInt32)

theorem marker_append (line : List Char) :
    Options.standard.marker ordered false number ++ line =
      if ordered then (toString number.toNat).toList ++ '.' :: ' ' :: line
      else '-' :: ' ' :: line := by
  cases ordered <;> simp [Options.marker, Options.standard, orderedMarker]

theorem single_marker : '\n' ∉ Options.standard.marker ordered false number := by
  have digits : '\n' ∉ Nat.toDigits 10 number.toNat := fun member =>
    absurd (Nat.isDigit_of_mem_toDigits (by decide) (by decide) member) (by decide)
  cases ordered <;> simp [Options.marker, Options.standard, orderedMarker, digits]

theorem marker_interrupts_iff (line : List Char) :
    (¬IsUnderline (Options.standard.marker ordered false number ++ line) ∧
        InterruptsParagraph (Options.standard.marker ordered false number ++ line)) ↔
      (ordered → number = 1) ∧ HasContent line := by
  rw [marker_append]
  cases ordered with
  | false => simp [isUnderline_bullet_iff, interruptsParagraph_bullet_iff]
  | true =>
      have clear : ¬IsUnderline ((toString number.toNat).toList ++ '.' :: ' ' :: line) := by
        intro underline
        have delimiter : '.' ∈ (toString number.toNat).toList ++ '.' :: ' ' :: line := by simp
        exact absurd (underline.mem delimiter) (by decide)
      have one : number.toNat = 1 ↔ number = 1 := by
        rw [← UInt32.toNat_inj]
        rfl
      rw [if_pos rfl, interruptsParagraph_ordered_iff, and_iff_right clear, one]
      simp

end

theorem firstLine_joinLines (single : '\n' ∉ line) (lines : List (List Char)) :
    firstLine (Text.joinLines (line :: lines)) = line := by
  cases lines with
  | nil => exact firstLine_of_not_mem single
  | cons next lines =>
      rw [Text.joinLines_cons line (List.cons_ne_nil _ _), firstLine_append_of_not_mem single]
      simp [firstLine]

theorem firstLine_indentLines (lead text : List Char) :
    firstLine (Text.indentLines lead text) = firstLine text := by
  unfold Text.indentLines
  split
  · next none => exact absurd none (Text.splitLines_ne_nil text)
  · next line lines found =>
      have member : line ∈ splitLines text := by
        rw [found]
        exact List.mem_cons_self
      have single := Text.not_mem_of_mem_splitLines member
      rw [firstLine_joinLines single, ← Text.joinLines_splitLines text, found,
        firstLine_joinLines single]

theorem firstLine_itemText {marker : List Char} (single : '\n' ∉ marker) (checked : Option Bool)
    (body : List Char) :
    firstLine (itemText marker checked body) = marker ++ (taskBox checked ++ firstLine body) := by
  have box : '\n' ∉ taskBox checked := by rcases checked with _ | _ | _ <;> decide
  have both : '\n' ∉ marker ++ taskBox checked := by simp [single, box]
  rw [itemText, firstLine_append_of_not_mem both, firstLine_indentLines, List.append_assoc]

theorem hasContent_taskBox_iff (checked : Option Bool) :
    HasContent (taskBox checked ++ line) ↔ checked.isSome ∨ HasContent line := by
  cases checked with
  | none => simp [taskBox]
  | some checked =>
      have bracket : HasContent (taskBox (some checked) ++ line) :=
        ⟨'[', List.mem_append_left _ (by cases checked <;> decide), rfl⟩
      simpa using bracket

/-! The text of a list. -/

section

variable (options : Options) (scope : Scope) (ordered alternate spread : Bool)

theorem text_writeItems_behind {before : List Char} (newline : before.head? = some '\n')
    (number : UInt32) (items : List Node) (buffer : Buffer) :
    ∃ tail, (∀ c ∈ tail.head?, c = '\n') ∧
      (writeItems options scope ordered alternate spread before number items buffer).text =
        buffer.text ++ tail := by
  induction items generalizing before number buffer with
  | nil => exact ⟨[], by simp, by simp [writeItems]⟩
  | cons node rest induction =>
      cases node with
      | listItem itemSpread checked children =>
          have goesOn : (if spread then ['\n', '\n'] else ['\n']).head? = some '\n' := by
            cases spread <;> rfl
          let item := itemText (options.marker ordered alternate number) checked
            (writeBlocks options (scope.enter .listItem) (!spread && !itemSpread) none children
              .empty).text
          obtain ⟨tail, -, written⟩ :=
            induction goesOn (options.next ordered number) ((buffer.push before).push item)
          refine ⟨before ++ (item ++ tail), ?_, written.trans ?_⟩
          · simp [List.head?_append, newline]
          · simp only [Buffer.text_push, List.append_assoc]
      | _ =>
          simp only [writeItems]
          exact induction newline number buffer

theorem text_writeItems_of_find? {items children : List Node} {itemSpread : Bool}
    {checked : Option Bool}
    (found : items.find? isItem = some (.listItem itemSpread checked children)) (number : UInt32)
    (buffer : Buffer) :
    ∃ tail, (∀ c ∈ tail.head?, c = '\n') ∧
      (writeItems options scope ordered alternate spread [] number items buffer).text =
        buffer.text ++ (itemText (options.marker ordered alternate number) checked
          (writeBlocks options (scope.enter .listItem) (!spread && !itemSpread) none children
            .empty).text ++ tail) := by
  induction items with
  | nil => cases found
  | cons node rest induction =>
      cases node with
      | listItem =>
          cases found
          have goesOn : (if spread then ['\n', '\n'] else ['\n']).head? = some '\n' := by
            cases spread <;> rfl
          obtain ⟨tail, newline, written⟩ := text_writeItems_behind options scope ordered alternate
            spread goesOn (options.next ordered number) rest _
          refine ⟨tail, newline, written.trans ?_⟩
          rw [Buffer.text_push, Buffer.push_nil, List.append_assoc]
      | _ =>
          simp only [writeItems]
          exact induction found

theorem writeItems_of_find?_none {items : List Node} (none : items.find? isItem = none)
    (before : List Char) (number : UInt32) (buffer : Buffer) :
    writeItems options scope ordered alternate spread before number items buffer = buffer := by
  induction items with
  | nil => simp only [writeItems]
  | cons node rest induction =>
      cases node with
      | listItem => cases none
      | _ =>
          simp only [writeItems]
          exact induction none

end

/-! The text of blocks. -/

def inlinesIn (scope : Scope) (nodes : List Node) : List Char :=
  (writeInlines .standard scope nodes .empty).text

def blocksIn (scope : Scope) (tight : Bool) (blocks : List Node) : List Char :=
  (writeBlocks .standard scope tight none blocks .empty).text

theorem separator_some (tight : Bool) (previous node : Node) :
    separator tight (some previous) node = ['\n'] ∨
      separator tight (some previous) node = ['\n', '\n'] := by
  cases node with
  | list => cases tight <;> simp [separator]
  | _ => exact .inr rfl

theorem text_writeBlocks_some (options : Options) (scope : Scope) (tight : Bool) (previous : Node)
    (nodes : List Node) (buffer : Buffer) :
    ∃ rest, (∀ c ∈ rest.head?, c = '\n') ∧
      (writeBlocks options scope tight (some previous) nodes buffer).text =
        buffer.text ++ rest := by
  cases nodes with
  | nil => exact ⟨[], by simp, by simp [writeBlocks]⟩
  | cons node others =>
      obtain ⟨more, parted, newline⟩ : ∃ more, separator tight (some previous) node = '\n' :: more ∧
          ('\n' :: more).getLast? = some '\n' := by
        rcases separator_some tight previous node with one | two
        · exact ⟨[], one, rfl⟩
        · exact ⟨['\n'], two, rfl⟩
      have grows := (grows_writeNode options scope (continuesList (some previous) node) node
        (buffer.push ('\n' :: more))).trans
          (grows_writeBlocks options scope tight (some node) others _)
      rw [writeBlocks, parted]
      rcases grows with ⟨tail, kept⟩ | ⟨before, ends, -⟩
      · refine ⟨'\n' :: more ++ tail, by simp, ?_⟩
        rw [← kept, Buffer.text_push, List.append_assoc]
      · have last := congrArg List.getLast? ends
        rw [Buffer.text_push, List.getLast?_append, newline] at last
        simp at last

section

variable (scope : Scope) (tight : Bool)

theorem text_writeBlocks_newline (alternate : Bool) (node : Node) (rest : List Node)
    {lead : List Char} (newline : lead.getLast? = some '\n') (buffer : Buffer) :
    (writeBlocks .standard scope tight (some node) rest
        (writeNode .standard scope alternate node (buffer.push lead))).text =
      buffer.text ++ lead ++ (writeBlocks .standard scope tight (some node) rest
        (writeNode .standard scope alternate node .empty)).text := by
  obtain ⟨before, rfl⟩ := List.getLast?_eq_some_iff.1 newline
  have pushed : buffer.push (before ++ ['\n']) =
      Buffer.empty.after ((buffer.text ++ before) ++ ['\n']) := by
    rw [Buffer.push_of_getLast? newline]
    simp [Buffer.after, Buffer.empty]
  have inert := isInert_append_newline (buffer.text ++ before)
  rw [pushed, writeNode_after _ inert, writeBlocks_after _ inert, Buffer.text_after,
    List.append_assoc buffer.text]

theorem blocksIn_cons (first : Node) (rest : List Node) :
    ∃ tail, (∀ c ∈ tail.head?, c = '\n') ∧
      blocksIn scope tight (first :: rest) = nodeText scope first ++ tail :=
  text_writeBlocks_some .standard scope tight first rest
    (writeNode .standard scope false first .empty)

theorem blocksIn_append_list (before line : List Node) {list : Node} (isList : list.kind = .list)
    (after : List Node) :
    blocksIn scope true (before ++ .paragraph line :: list :: after) =
      blocksIn scope true (before ++ [.paragraph line]) ++
        '\n' :: blocksIn scope true (list :: after) := by
  have parts : before ++ .paragraph line :: list :: after =
      (before ++ [.paragraph line]) ++ list :: after := by simp
  have last : (before ++ [Node.paragraph line]).getLast?.or none = some (.paragraph line) := by simp
  cases list with
  | list ordered start spread items =>
      have newline : ['\n'].getLast? = some '\n' := rfl
      have written := text_writeBlocks_newline scope true false (.list ordered start spread items)
        after newline (writeBlocks .standard scope true none (before ++ [.paragraph line]) .empty)
      rw [List.append_assoc] at written
      rw [blocksIn, parts, writeBlocks_append, last, writeBlocks]
      exact written
  | _ => cases isList

end

/-! What nodes are written as at the start of a line. -/

section

variable (scope : Scope)

theorem nodeText_root (children : List Node) :
    nodeText scope (.root children) = blocksIn (scope.enter .root) false children := rfl

theorem nodeText_html (value : String) : nodeText scope (.html value) = value.toList := by
  simp [nodeText, writeNode, handled?_of_bare, Options.standard, Buffer.empty]

theorem nodeText_yaml (value : String) : nodeText scope (.yaml value) = metadataText value := by
  simp [nodeText, writeNode, handled?_of_bare, Options.standard, Buffer.empty]

theorem nodeText_listItem (spread : Bool) (checked : Option Bool) (children : List Node) :
    nodeText scope (.listItem spread checked children) =
      itemText (Options.standard.marker false false 1) checked
        (blocksIn ((scope.enter .listItem).enter .listItem) (!spread) children) := by
  simp [nodeText, writeNode, handled?_of_bare, Options.standard, Buffer.empty, blocksIn]

theorem nodeText_callout (kind : Markdown.CalloutKind) {first : Node}
    (other : first.kind ≠ .paragraph) (rest : List Node) :
    nodeText scope (.callout kind (first :: rest)) =
      calloutText kind.marker false (blocksIn (scope.enter .callout) false (first :: rest)) := by
  have bare : ∀ node, Options.standard.handled? scope node = none := fun _ => rfl
  have apart : startsWithParagraph (first :: rest) = false := by
    cases first <;> first | rfl | exact absurd rfl other
  simp only [nodeText, writeNode, bare, ite_self, apart, Buffer.text_push]
  rfl

theorem nodeText_list_of_find?_none (ordered : Bool) (start : Option UInt32) (spread : Bool)
    {items : List Node} (none : items.find? isItem = none) :
    nodeText scope (.list ordered start spread items) = [] :=
  congrArg Buffer.text (writeItems_of_find?_none _ _ _ _ _ none _ _ _)

theorem firstLine_list (ordered : Bool) (start : Option UInt32) (spread : Bool)
    {items children : List Node} {itemSpread : Bool} {checked : Option Bool}
    (found : items.find? isItem = some (.listItem itemSpread checked children)) :
    firstLine (nodeText scope (.list ordered start spread items)) =
      Options.standard.marker ordered false (firstNumber start) ++ (taskBox checked ++
        firstLine (blocksIn ((scope.enter .list).enter .listItem) (!spread && !itemSpread)
          children)) := by
  obtain ⟨tail, ends, written⟩ := text_writeItems_of_find? .standard (scope.enter .list) ordered
    false spread found (firstNumber start) .empty
  have whole : nodeText scope (.list ordered start spread items) =
      itemText (Options.standard.marker ordered false (firstNumber start)) checked
        (blocksIn ((scope.enter .list).enter .listItem) (!spread && !itemSpread) children) ++
          tail := written
  rw [whole, firstLine_append_of_head? ends, firstLine_itemText (single_marker ordered _)]

end

/-! Blocks below a line of text. -/

/-- Whether a block with a text is still read as that block below a line of text: it makes no
heading of the line, and if it is a list it interrupts the paragraph. -/
def ReadBelow (node : Node) (text : List Char) : Prop :=
  ¬IsUnderline (firstLine text) ∧
    (node.kind = .list → node.children.any isItem → InterruptsParagraph (firstLine text))

/-- Whether there is more than blanks behind the marker of an item, on its first line. -/
def StartsFilled (scope : Scope) (tight : Bool) (checked : Option Bool) (children : List Node) :
    Prop :=
  checked.isSome ∨ HasContent (firstLine (blocksIn scope tight children))

/-- What a node has to be like to be read below a line of text. Rules and metadata start with
dashes. A list starts with the number one, and its first item with something in it. Of a node that
is no block below a line of text, the text itself has to be looked at. -/
def FollowsText (scope : Scope) : Node → Prop
  | .thematicBreak | .yaml _ => False
  | .html value => ¬IsUnderline (firstLine value.toList)
  | .list ordered start spread items =>
      ∀ itemSpread checked children,
        items.find? isItem = some (.listItem itemSpread checked children) →
          (ordered → firstNumber start = 1) ∧
            StartsFilled ((scope.enter .list).enter .listItem) (!spread && !itemSpread) checked
              children
  | .listItem spread checked children =>
      StartsFilled ((scope.enter .listItem).enter .listItem) (!spread) checked children
  | .root children =>
      ∀ first ∈ children.head?, ¬IsUnderline (firstLine (nodeText (scope.enter .root) first))
  | .paragraph children =>
      (∀ child ∈ children, child.isInline) ∨
        ¬IsUnderline (firstLine (inlinesIn (scope.enter .paragraph) children))
  | .tableCell children =>
      (∀ child ∈ children, child.isInline) ∨
        ¬IsUnderline (firstLine (inlinesIn (scope.enter .tableCell) children))
  | _ => True

theorem readBelow_of_not_list {node : Node} (other : node.kind ≠ .list) :
    ReadBelow node text ↔ ¬IsUnderline (firstLine text) :=
  and_iff_left fun isList => absurd isList other

theorem exists_of_find?_isItem {items : List Node} {item : Node}
    (found : items.find? isItem = some item) :
    ∃ spread checked children, item = .listItem spread checked children := by
  have isFound := List.find?_some found
  cases item with
  | listItem spread checked children => exact ⟨spread, checked, children, rfl⟩
  | _ => cases isFound

theorem readBelow_list_iff (scope : Scope) (ordered : Bool) (start : Option UInt32) (spread : Bool)
    (items : List Node) :
    ReadBelow (.list ordered start spread items)
        (nodeText scope (.list ordered start spread items)) ↔
      FollowsText scope (.list ordered start spread items) := by
  cases found : items.find? isItem with
  | none =>
      have noItem : items.any isItem = false := by simpa using found
      rw [nodeText_list_of_find?_none scope ordered start spread found]
      exact iff_of_true ⟨not_isUnderline_nil, by simp [Node.children, noItem]⟩
        (by simp [FollowsText, found])
  | some item =>
      obtain ⟨itemSpread, checked, children, rfl⟩ := exists_of_find?_isItem found
      have anyItem : items.any isItem :=
        List.any_eq_true.2 ⟨_, List.mem_of_find?_eq_some found, rfl⟩
      have follows : FollowsText scope (.list ordered start spread items) ↔
          (ordered → firstNumber start = 1) ∧ StartsFilled ((scope.enter .list).enter .listItem)
            (!spread && !itemSpread) checked children := by
        simp [FollowsText, found]
      rw [follows, StartsFilled, ← hasContent_taskBox_iff, ← marker_interrupts_iff, ReadBelow,
        firstLine_list scope ordered start spread found]
      simp [Node.kind, Node.children, anyItem]

theorem isUnderline_dashes : IsUnderline ['-', '-', '-'] :=
  ⟨'-', 2, [], .inr rfl, by simp, rfl⟩

theorem inlines_not_isUnderline_iff (scope : Scope) (children : List Node) :
    ¬IsUnderline (firstLine (inlinesIn scope children)) ↔
      (∀ child ∈ children, child.isInline) ∨
        ¬IsUnderline (firstLine (inlinesIn scope children)) := by
  refine ⟨.inr, fun either => either.elim (fun inline => ?_) id⟩
  exact (begins_writeInlines scope inline).not_isUnderline

theorem readBelow_nodeText_iff (scope : Scope) (node : Node) :
    ReadBelow node (nodeText scope node) ↔ FollowsText scope node := by
  by_cases isList : node.kind = .list
  · cases node with
    | list ordered start spread items => exact readBelow_list_iff scope ordered start spread items
    | _ => cases isList
  rw [readBelow_of_not_list isList]
  cases node with
  | list => exact absurd rfl isList
  | thematicBreak => exact iff_of_false (not_not_intro isUnderline_dashes) id
  | yaml value =>
      have dashes : firstLine (metadataText value) = ['-', '-', '-'] := by
        simp [metadataText, firstLine]
      rw [nodeText_yaml, dashes]
      exact iff_of_false (not_not_intro isUnderline_dashes) id
  | html value =>
      rw [nodeText_html]
      rfl
  | listItem spread checked children =>
      rw [nodeText_listItem, firstLine_itemText (single_marker false 1), marker_append,
        if_neg Bool.false_ne_true, isUnderline_bullet_iff, not_not, hasContent_taskBox_iff]
      rfl
  | root children =>
      cases children with
      | nil => exact iff_of_true not_isUnderline_nil (by simp [FollowsText])
      | cons first rest =>
          obtain ⟨tail, ends, written⟩ := blocksIn_cons (scope.enter .root) false first rest
          rw [nodeText_root, written, firstLine_append_of_head? ends]
          simp [FollowsText]
  | paragraph children | tableCell children => exact inlines_not_isUnderline_iff _ children
  | _ => exact iff_of_true (begins_writeNode scope rfl).not_isUnderline trivial

theorem readBelow_blocksIn_iff (scope : Scope) (tight : Bool) (first : Node) (rest : List Node) :
    ReadBelow first (blocksIn scope tight (first :: rest)) ↔ FollowsText scope first := by
  obtain ⟨tail, ends, written⟩ := blocksIn_cons scope tight first rest
  rw [← readBelow_nodeText_iff, ReadBelow, ReadBelow, written, firstLine_append_of_head? ends]

/-- Right below a line of text stand the list behind a paragraph in a tight container, and the first
block of a callout that does not start with a paragraph. What is written there is read as a block
of its own just if the block is fit to follow text. -/
theorem blocks_below_text (scope : Scope) :
    (∀ before line list after, list.kind = .list →
      blocksIn scope true (before ++ .paragraph line :: list :: after) =
          blocksIn scope true (before ++ [.paragraph line]) ++
            '\n' :: blocksIn scope true (list :: after) ∧
        (ReadBelow list (blocksIn scope true (list :: after)) ↔ FollowsText scope list)) ∧
    ∀ (kind : Markdown.CalloutKind) first rest, first.kind ≠ .paragraph →
      nodeText scope (.callout kind (first :: rest)) =
          calloutText kind.marker false (blocksIn (scope.enter .callout) false (first :: rest)) ∧
        (ReadBelow first (blocksIn (scope.enter .callout) false (first :: rest)) ↔
          FollowsText (scope.enter .callout) first) := by
  refine ⟨fun before line list after isList => ⟨?_, ?_⟩, fun kind first rest other => ⟨?_, ?_⟩⟩
  · exact blocksIn_append_list scope before line isList after
  · exact readBelow_blocksIn_iff scope true list after
  · exact nodeText_callout scope kind other rest
  · exact readBelow_blocksIn_iff (scope.enter .callout) false first rest

def nestedList (ordered : Bool) (start : Option UInt32) : Node :=
  .list ordered start false [.listItem false none [.paragraph [.text "b"]]]

theorem blocks_below_text_nested :
    (nestedList true none).kind = .list ∧
      blocksIn ⟨[]⟩ true [.paragraph [.text "a"], nestedList true none] = "a\n1. b".toList ∧
      ReadBelow (nestedList true none) (blocksIn ⟨[]⟩ true [nestedList true none]) ∧
      (nestedList false none).kind ≠ .paragraph ∧
      nodeText ⟨[]⟩ (.callout .info [nestedList false none]) = "> [!NOTE]\n> - b".toList ∧
      ReadBelow (nestedList false none)
        (blocksIn (Scope.enter .callout ⟨[]⟩) false [nestedList false none]) := by
  obtain ⟨inItem, inCallout⟩ := blocks_below_text ⟨[]⟩
  obtain ⟨itemText, itemReads⟩ := inItem [] [.text "a"] (nestedList true none) [] rfl
  obtain ⟨calloutText, calloutReads⟩ := inCallout .info (nestedList false none) [] nofun
  refine ⟨rfl, itemText.trans (by decide +kernel), itemReads.2 ?_, nofun,
    calloutText.trans (by decide +kernel), calloutReads.2 ?_⟩
  all_goals
    intro itemSpread checked children found
    cases found
    exact ⟨fun _ => rfl, .inr ⟨'b', by decide +kernel, rfl⟩⟩

/-- A list that starts with the number two goes on with the paragraph above it, and a rule in a
callout makes a heading of the marker above it. -/
theorem blocks_below_text_taken :
    ¬(∀ (scope : Scope) list after, list.kind = .list →
        ReadBelow list (blocksIn scope true (list :: after))) ∧
      ¬∀ (scope : Scope) first rest, first.kind ≠ .paragraph →
        ReadBelow first (blocksIn (scope.enter .callout) false (first :: rest)) := by
  constructor
  · intro read
    have follows := (readBelow_blocksIn_iff ⟨[]⟩ true (nestedList true (some 2)) []).1
      (read ⟨[]⟩ (nestedList true (some 2)) [] rfl)
    exact absurd ((follows _ _ _ rfl).1 rfl) (by decide)
  · intro read
    exact (readBelow_blocksIn_iff _ false .thematicBreak []).1 (read ⟨[]⟩ .thematicBreak [] nofun)

end EditorMarkdown.Writer
