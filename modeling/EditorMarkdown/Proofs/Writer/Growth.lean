import EditorMarkdown.Proofs.Writer.Place

/-!
What is written stays. A node is written behind the text that is there, of which at most the last
character changes: an exclamation mark is escaped where a link follows it.
-/

namespace EditorMarkdown.Writer

open Markdown (Node)

variable {text middle written : List Char}

/-- Whether a text is what another becomes when more is written: the other stays, but for an
exclamation mark at its end that is escaped. -/
def Grows (text written : List Char) : Prop :=
  text <+: written ∨ ∃ before, text = before ++ ['!'] ∧ before ++ ['\\'] <+: written

theorem Grows.refl (text : List Char) : Grows text text := .inl (List.prefix_refl text)

theorem Grows.trans (first : Grows text middle) (second : Grows middle written) :
    Grows text written := by
  rcases first with kept | ⟨before, rfl, escaped⟩
  · rcases second with keptNext | ⟨before, rfl, escaped⟩
    · exact .inl (kept.trans keptNext)
    · rcases List.prefix_concat_iff.1 kept with rfl | shorter
      · exact .inr ⟨before, rfl, escaped⟩
      · exact .inl (shorter.trans ((List.prefix_append _ _).trans escaped))
  · refine .inr ⟨before, rfl, ?_⟩
    rcases second with keptNext | ⟨beforeNext, rfl, escapedNext⟩
    · exact escaped.trans keptNext
    · -- a backslash at the end is no exclamation mark, so it stays with what is before it
      rcases List.prefix_concat_iff.1 escaped with same | shorter
      · simp at same
      · exact shorter.trans ((List.prefix_append _ _).trans escapedNext)

theorem grows_push (piece : List Char) (buffer : Buffer) :
    Grows buffer.text (buffer.push piece).text := by
  rw [Buffer.text_push]
  exact .inl (List.prefix_append _ _)

theorem Grows.push {buffer : Buffer} (grows : Grows text buffer.text) (piece : List Char) :
    Grows text (buffer.push piece).text :=
  grows.trans (grows_push piece buffer)

theorem grows_pushCode (code : List Char) (buffer : Buffer) :
    Grows buffer.text (buffer.pushCode code).text :=
  (grows_push _ buffer).push code

theorem getLast?_of_endsUnescaped {c : Char} (ends : endsUnescaped c text) :
    text.getLast? = some c := by
  rw [endsUnescaped, Bool.and_eq_true, decide_eq_true_eq] at ends
  exact ends.1

theorem grows_escapeBang (buffer : Buffer) : Grows buffer.text buffer.escapeBang.text := by
  unfold Buffer.escapeBang
  split
  · next ends =>
      obtain ⟨before, whole⟩ := List.getLast?_eq_some_iff.1 (getLast?_of_endsUnescaped ends)
      exact .inr ⟨before, whole, ['!'], by simp [whole]⟩
  · exact .refl _

theorem grows_pushLines (inCell singleLine : Bool) :
    ∀ (lines : List (List Char)) (buffer : Buffer),
      Grows buffer.text (buffer.pushLines inCell singleLine lines).text
  | [], _ => .refl _
  | [_], buffer => grows_push _ buffer
  | _ :: next :: lines, buffer =>
      ((grows_push _ buffer).push _).trans (grows_pushLines inCell singleLine (next :: lines) _)

theorem prefix_heading (options : Options) (scope : Scope) (depth : UInt8) (children : List Node)
    (buffer : Buffer) :
    let start := (buffer.push (List.replicate (headingDepth depth) '#' ++ [' '])).startLine
    start.text <+:
      ((writeInlines options scope children start).closeHeading start.text.length).text := by
  intro start
  rw [text_heading]
  exact List.prefix_append _ _

theorem grows_heading (options : Options) (scope : Scope) (depth : UInt8) (children : List Node)
    (buffer : Buffer) :
    let start := (buffer.push (List.replicate (headingDepth depth) '#' ++ [' '])).startLine
    Grows buffer.text
      ((writeInlines options scope children start).closeHeading start.text.length).text :=
  (grows_push _ buffer).trans (.inl (prefix_heading options scope depth children buffer))

mutual
theorem grows_writeNode (options : Options) (scope : Scope) (alternate : Bool) :
    ∀ (node : Node) (buffer : Buffer),
      Grows buffer.text (writeNode options scope alternate node buffer).text := by
  intro node buffer
  cases handled : if alternate then none else options.handled? scope node with
  | some text =>
      rw [writeNode_of_handled handled]
      exact grows_push text buffer
  | none =>
      cases node with
      | root children =>
          simp only [writeNode, handled]
          exact grows_writeBlocks options _ false none children buffer
      | heading depth children =>
          simp only [writeNode, handled]
          exact grows_heading options _ depth children buffer
      | paragraph children | tableCell children =>
          simp only [writeNode, handled]
          exact grows_writeInlines options _ children buffer
      | list ordered start spread children =>
          simp only [writeNode, handled]
          exact grows_writeItems options _ ordered alternate spread [] _ children buffer
      | text value =>
          simp only [writeNode, handled]
          exact grows_pushLines _ _ _ buffer
      | emphasis children | strong children | delete children =>
          simp only [writeNode, handled]
          exact ((grows_push _ buffer).trans (grows_writeInlines options _ children _)).push _
      | inlineCode value =>
          simp only [writeNode, handled]
          exact grows_pushCode _ buffer
      | link url title children =>
          simp only [writeNode, handled]
          exact (((grows_escapeBang buffer).push _).trans
            (grows_writeInlines options _ children _)).push _
      | thematicBreak | blockquote _ | callout _ _ | listItem _ _ _ | code _ _ _ | table _ _
      | tableRow _ | html _ | yaml _ | lineBreak | image _ _ _ =>
          simp only [writeNode, handled]
          exact grows_push _ buffer

theorem grows_writeInlines (options : Options) (scope : Scope) :
    ∀ (nodes : List Node) (buffer : Buffer),
      Grows buffer.text (writeInlines options scope nodes buffer).text
  | [], _ => .refl _
  | node :: rest, buffer =>
      (grows_writeNode options scope false node buffer).trans
        (grows_writeInlines options scope rest _)

theorem grows_writeBlocks (options : Options) (scope : Scope) (tight : Bool) :
    ∀ (previous : Option Node) (nodes : List Node) (buffer : Buffer),
      Grows buffer.text (writeBlocks options scope tight previous nodes buffer).text
  | _, [], _ => .refl _
  | _, node :: rest, buffer =>
      ((grows_push _ buffer).trans (grows_writeNode options scope _ node _)).trans
        (grows_writeBlocks options scope tight (some node) rest _)

theorem grows_writeItems (options : Options) (scope : Scope) (ordered alternate spread : Bool) :
    ∀ (before : List Char) (number : UInt32) (nodes : List Node) (buffer : Buffer),
      Grows buffer.text
        (writeItems options scope ordered alternate spread before number nodes buffer).text
  | _, _, [], _ => by
      simp only [writeItems]
      exact .refl _
  | before, number, node :: rest, buffer => by
      cases node with
      | listItem itemSpread checked children =>
          simp only [writeItems]
          exact ((grows_push _ buffer).push _).trans
            (grows_writeItems options scope ordered alternate spread _ _ rest _)
      | _ =>
          simp only [writeItems]
          exact grows_writeItems options scope ordered alternate spread _ _ rest _
end

end EditorMarkdown.Writer
