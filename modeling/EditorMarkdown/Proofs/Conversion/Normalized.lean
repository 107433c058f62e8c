import EditorMarkdown.Proofs.Conversion.Lines
import EditorMarkdown.Proofs.Markdown.Merging

/-!
The markdown of a document is normal, whatever the document is. Every hook keeps nodes normal,
for any subject: what is empty has no markdown, and a heading is folded after everything in it. So
a walk over the document, which only puts nodes side by side and applies hooks, makes normal nodes.
-/

namespace EditorMarkdown.Conversion

open Markdown (Kind foldBreaks mergeTexts)
open Markdown.Node (partsOf)

variable {part node : Markdown.Node} {nodes others : List Markdown.Node}

/-! Folded nodes. -/

structure IsFolded (nodes : List Markdown.Node) : Prop where
  apart : TextsApart nodes
  unbroken : ∀ part ∈ partsOf nodes, part.kind ≠ .lineBreak
  inside : ∀ part ∈ partsOf nodes, TextsApart part.children

theorem kind_ne_lineBreak_of_isContainer (container : node.isContainer) :
    node.kind ≠ .lineBreak := by
  cases node <;> simp_all [Markdown.Node.kind, Markdown.Node.isContainer]

theorem textsApart_foldBreaks (nodes : List Markdown.Node) : TextsApart (foldBreaks nodes) :=
  textsApart_mergeTexts _

theorem folded_rebuild (node : Markdown.Node) :
    ∀ part ∈ (node.rebuild Markdown.Node.breakToSpace mergeTexts).parts,
      part.kind ≠ .lineBreak ∧ TextsApart part.children := by
  induction node using Markdown.Node.children_induction with
  | _ node induction =>
      cases container : node.isContainer with
      | true =>
          rw [Markdown.rebuild_of_isContainer container, Markdown.Node.parts_eq,
            Markdown.Node.children_withChildren container]
          refine List.forall_mem_cons.2 ⟨⟨?_, ?_⟩, ?_⟩
          · rw [Markdown.Node.kind_withChildren]
            exact kind_ne_lineBreak_of_isContainer container
          · rw [Markdown.Node.children_withChildren container]
            exact textsApart_foldBreaks node.children
          · exact Markdown.forall_partsOf_foldBreaks
              (fun _ _ _ _ => ⟨nofun, .nil⟩) induction
      | false =>
          rw [Markdown.Node.rebuild_of_not_isContainer _ _ container]
          cases node with
          | lineBreak | text | inlineCode | thematicBreak | code | html | yaml | image =>
              exact List.forall_mem_singleton.2 ⟨nofun, .nil⟩
          | _ => cases container

theorem isFolded_foldBreaks (nodes : List Markdown.Node) : IsFolded (foldBreaks nodes) := by
  have folded : ∀ part ∈ partsOf (foldBreaks nodes),
      part.kind ≠ .lineBreak ∧ TextsApart part.children :=
    Markdown.forall_partsOf_foldBreaks (fun _ _ _ _ => ⟨nofun, .nil⟩)
      fun node _ => folded_rebuild node
  exact
    { apart := textsApart_foldBreaks nodes
      unbroken := fun part member => (folded part member).1
      inside := fun part member => (folded part member).2 }

/-! Normal nodes. -/

def filledKinds : List Kind := [.paragraph, .emphasis, .strong, .delete, .link]

/-- What each part of normal nodes is like. -/
structure IsNormalPart (part : Markdown.Node) : Prop where
  text : part ≠ .text ""
  code : part ≠ .inlineCode ""
  filled : part.kind ∈ filledKinds → part.children ≠ []
  heading : ∀ depth children, part = .heading depth children →
    1 ≤ depth.toNat ∧ depth.toNat ≤ 6 ∧ IsFolded children

def IsNormal (nodes : List Markdown.Node) : Prop := ∀ part ∈ partsOf nodes, IsNormalPart part

def plainKinds : List Kind :=
  [.root, .thematicBreak, .blockquote, .callout, .list, .listItem, .code, .table, .tableRow,
    .tableCell, .html, .yaml, .lineBreak, .image]

theorem isNormalPart_of_plain (plain : part.kind ∈ plainKinds) : IsNormalPart part where
  text := by
    rintro rfl
    exact absurd plain (by decide)
  code := by
    rintro rfl
    exact absurd plain (by decide)
  filled := by
    have apart : ∀ kind ∈ plainKinds, kind ∉ filledKinds := by decide
    exact fun filled => absurd filled (apart _ plain)
  heading := by
    rintro depth children rfl
    exact absurd plain (by simp [plainKinds, Markdown.Node.kind])

theorem isNormalPart_of_filled (kind : part.kind ∈ filledKinds) (filled : part.children ≠ []) :
    IsNormalPart part where
  text := by
    rintro rfl
    exact filled rfl
  code := by
    rintro rfl
    exact filled rfl
  filled := fun _ => filled
  heading := by
    rintro depth children rfl
    exact absurd kind (by simp [filledKinds, Markdown.Node.kind])

theorem isNormalPart_text {value : String} : IsNormalPart (.text value) ↔ value ≠ "" := by
  refine ⟨fun normal empty => normal.text (empty ▸ rfl), fun filled => ?_⟩
  exact
    { text := by simpa using filled
      code := nofun
      filled := by simp [Markdown.Node.kind, filledKinds]
      heading := nofun }

theorem isNormalPart_inlineCode {value : String} (filled : value ≠ "") :
    IsNormalPart (.inlineCode value) where
  text := nofun
  code := by simpa using filled
  filled := by simp [Markdown.Node.kind, filledKinds]
  heading := nofun

theorem isNormalPart_heading {depth : UInt8} (least : 1 ≤ depth.toNat) (most : depth.toNat ≤ 6)
    (folded : IsFolded nodes) : IsNormalPart (.heading depth nodes) where
  text := nofun
  code := nofun
  filled := by simp [Markdown.Node.kind, filledKinds]
  heading := by
    rintro _ _ ⟨⟩
    exact ⟨least, most, folded⟩

theorem isNormal_nil : IsNormal [] := fun _ member => nomatch member

theorem isNormal_cons :
    IsNormal (node :: nodes) ↔ IsNormalPart node ∧ IsNormal node.children ∧ IsNormal nodes := by
  simp only [IsNormal, Markdown.Node.mem_partsOf_cons, or_imp, forall_and, forall_eq]

theorem isNormal_singleton : IsNormal [node] ↔ IsNormalPart node ∧ IsNormal node.children := by
  simp only [isNormal_cons, isNormal_nil, and_true]

theorem isNormal_append : IsNormal (nodes ++ others) ↔ IsNormal nodes ∧ IsNormal others := by
  simp only [IsNormal, Markdown.Node.partsOf_append, List.forall_mem_append]

theorem isNormal_flatMap {α : Type} {items : List α} {made : α → List Markdown.Node} :
    IsNormal (items.flatMap made) ↔ ∀ item ∈ items, IsNormal (made item) := by
  induction items with
  | nil => simp [isNormal_nil]
  | cons item items induction =>
      rw [List.flatMap_cons, isNormal_append, induction, List.forall_mem_cons]

theorem isNormal_iff_of_mem : IsNormal nodes ↔ ∀ node ∈ nodes, IsNormal [node] := by
  have split : nodes = nodes.flatMap fun node => [node] := (List.flatMap_singleton' nodes).symm
  rw [← isNormal_flatMap, ← split]

/-! Folding keeps nodes normal. -/

theorem IsNormalPart.withFolded (normal : IsNormalPart node) (container : node.isContainer) :
    IsNormalPart (node.withChildren (foldBreaks node.children)) where
  text := by
    intro isText
    rw [← Markdown.isContainer_withChildren node, isText] at container
    cases container
  code := by
    intro isCode
    rw [← Markdown.isContainer_withChildren node, isCode] at container
    cases container
  filled := by
    rw [Markdown.Node.kind_withChildren, Markdown.Node.children_withChildren container]
    exact fun kind => Markdown.foldBreaks_ne_nil (normal.filled kind)
  heading := by
    intro depth children isHeading
    cases node with
    | heading level inner =>
        obtain ⟨least, most, -⟩ := normal.heading level inner rfl
        cases isHeading
        exact ⟨least, most, isFolded_foldBreaks inner⟩
    | _ => cases isHeading

theorem isNormalPart_together (value more : String) (normal : IsNormalPart (.text value))
    (_ : IsNormalPart (.text more)) : IsNormalPart (.text (value ++ more)) := by
  rw [isNormalPart_text] at normal ⊢
  exact fun empty => normal (String.append_eq_empty_iff.1 empty).1

theorem isNormalPart_rebuild (node : Markdown.Node) (normal : IsNormal [node]) :
    ∀ part ∈ (node.rebuild Markdown.Node.breakToSpace mergeTexts).parts, IsNormalPart part := by
  induction node using Markdown.Node.children_induction with
  | _ node induction =>
      obtain ⟨top, inside⟩ := isNormal_singleton.1 normal
      cases container : node.isContainer with
      | true =>
          rw [Markdown.rebuild_of_isContainer container, Markdown.Node.parts_eq,
            Markdown.Node.children_withChildren container]
          refine List.forall_mem_cons.2 ⟨top.withFolded container, ?_⟩
          exact Markdown.forall_partsOf_foldBreaks isNormalPart_together fun child member =>
            induction child member (isNormal_iff_of_mem.1 inside child member)
      | false =>
          rw [Markdown.Node.rebuild_of_not_isContainer _ _ container]
          cases node with
          | lineBreak =>
              exact List.forall_mem_singleton.2 (isNormalPart_text.2 (by simp))
          | text | inlineCode | thematicBreak | code | html | yaml | image =>
              exact List.forall_mem_singleton.2 top
          | _ => cases container

theorem isNormal_foldBreaks (normal : IsNormal nodes) : IsNormal (foldBreaks nodes) :=
  Markdown.forall_partsOf_foldBreaks isNormalPart_together fun node member =>
    isNormalPart_rebuild node (isNormal_iff_of_mem.1 normal node member)

/-! The hooks. -/

def KeepsNormal (hook : ToMarkdown) : Prop :=
  ∀ subject nodes, IsNormal nodes → IsNormal (hook subject nodes)

def Normalizes (extension : Extension) : Prop :=
  ∀ hook ∈ extension.entry.toMarkdown, KeepsNormal hook

theorem isNormal_enclose {outer : List Markdown.Node → Markdown.Node}
    (kind : ∀ nodes, (outer nodes).kind ∈ filledKinds)
    (children : ∀ nodes, (outer nodes).children = nodes) (normal : IsNormal nodes) :
    IsNormal (enclose outer nodes) := by
  unfold enclose
  split
  · exact isNormal_nil
  · next filled =>
      refine isNormal_singleton.2 ⟨isNormalPart_of_filled (kind nodes) ?_, ?_⟩
      · rw [children]
        simpa using filled
      · rwa [children]

theorem isNormal_plain (plain : node.kind ∈ plainKinds) (normal : IsNormal node.children) :
    IsNormal [node] :=
  isNormal_singleton.2 ⟨isNormalPart_of_plain plain, normal⟩

theorem keepsNormal_codeToMarkdown : KeepsNormal codeToMarkdown := by
  intro subject nodes _
  unfold codeToMarkdown
  dsimp only
  split
  · exact isNormal_nil
  · next filled =>
      exact isNormal_singleton.2 ⟨isNormalPart_inlineCode (by simpa using filled), isNormal_nil⟩

theorem keepsNormal_textToMarkdown : KeepsNormal textToMarkdown := by
  intro subject nodes _
  unfold textToMarkdown
  split
  · split
    · exact isNormal_nil
    · next filled =>
        exact isNormal_singleton.2 ⟨isNormalPart_text.2 (by simpa using filled), isNormal_nil⟩
  · exact isNormal_nil

theorem toNat_clampLevel (level : Nat) :
    1 ≤ (UInt8.ofNat (clampLevel level)).toNat ∧ (UInt8.ofNat (clampLevel level)).toNat ≤ 6 := by
  have bounds : 1 ≤ clampLevel level ∧ clampLevel level ≤ 6 := by
    unfold clampLevel
    omega
  rw [UInt8.toNat_ofNat_of_lt' (by simp [UInt8.size]; omega)]
  exact bounds

theorem keepsNormal_headingToMarkdown : KeepsNormal headingToMarkdown := by
  intro subject nodes normal
  obtain ⟨least, most⟩ :=
    toNat_clampLevel (((subject.attr? "level").bind Json.Value.natural?).getD 1)
  exact isNormal_singleton.2
    ⟨isNormalPart_heading least most (isFolded_foldBreaks nodes), isNormal_foldBreaks normal⟩

theorem isNormal_inlineForm (normal : IsNormal [node]) : IsNormal (inlineForm node) := by
  obtain ⟨-, inside⟩ := isNormal_singleton.1 normal
  unfold inlineForm
  split
  · exact inside
  · split
    · exact normal
    · exact inside

theorem isNormal_joinBlocks (normal : IsNormal nodes) : IsNormal (joinBlocks nodes) := by
  refine List.foldlRecOn nodes _ isNormal_nil fun line before block member => ?_
  have form := isNormal_inlineForm (isNormal_iff_of_mem.1 normal block member)
  have parted : IsNormal (if line.isEmpty then line else line ++ [.lineBreak]) := by
    split
    · exact before
    · exact isNormal_append.2 ⟨before, isNormal_plain (by decide) isNormal_nil⟩
  exact isNormal_append.2 ⟨parted, form⟩

theorem normalizes_markExtensions : ∀ extension ∈ markExtensions, Normalizes extension := by
  simp only [markExtensions, List.forall_mem_cons]
  refine ⟨?link, ?bold, ?italic, ?strike, ?code, by simp⟩
  case code =>
    rintro _ ⟨⟩
    exact keepsNormal_codeToMarkdown
  all_goals
    rintro _ ⟨⟩ subject nodes normal
    refine isNormal_enclose (fun _ => ?_) (fun _ => rfl) normal
    simp [Markdown.Node.kind, filledKinds]

theorem normalizes_blockExtensions : ∀ extension ∈ blockExtensions, Normalizes extension := by
  simp only [blockExtensions, List.forall_mem_cons]
  refine ⟨?doc, ?paragraph, ?text, ?hardBreak, ?heading, ?blockquote, ?callout, ?codeBlock,
    ?horizontalRule, ?image, by simp⟩
  case paragraph =>
    rintro _ ⟨⟩ subject nodes normal
    refine isNormal_enclose (fun _ => ?_) (fun _ => rfl) normal
    simp [Markdown.Node.kind, filledKinds]
  case text =>
    rintro _ ⟨⟩
    exact keepsNormal_textToMarkdown
  case heading =>
    rintro _ ⟨⟩
    exact keepsNormal_headingToMarkdown
  case hardBreak | codeBlock | horizontalRule | image =>
    rintro _ ⟨⟩ subject nodes -
    exact isNormal_plain (by simp [Markdown.Node.kind, plainKinds]) isNormal_nil
  all_goals
    rintro _ ⟨⟩ subject nodes normal
    exact isNormal_plain (by simp [Markdown.Node.kind, plainKinds]) normal

theorem normalizes_listExtensions : ∀ extension ∈ listExtensions, Normalizes extension := by
  simp only [listExtensions, List.forall_mem_cons]
  refine ⟨?bulletList, ?orderedList, ?taskList, ?listItem, ?taskItem, by simp⟩
  all_goals
    rintro _ ⟨⟩ subject nodes normal
    exact isNormal_plain (by simp [Markdown.Node.kind, plainKinds]) normal

theorem normalizes_tableExtensions : ∀ extension ∈ tableExtensions, Normalizes extension := by
  simp only [tableExtensions, List.forall_mem_cons]
  refine ⟨?table, ?tableRow, ?tableCell, ?tableHeader, by simp⟩
  case tableCell | tableHeader =>
    rintro _ ⟨⟩ subject nodes normal
    exact isNormal_plain (by simp [Markdown.Node.kind, plainKinds]) (isNormal_joinBlocks normal)
  all_goals
    rintro _ ⟨⟩ subject nodes normal
    exact isNormal_plain (by simp [Markdown.Node.kind, plainKinds]) normal

theorem isNormal_applyTo (subject : Subject) (normal : IsNormal nodes) :
    IsNormal (Registry.standard.applyTo subject nodes) := by
  rcases applyTo_cases .standard subject.type with
    unhooked | ⟨entry, inEntries, hook, hooked, applied⟩
  · rwa [unhooked subject nodes rfl]
  · rw [applied subject nodes rfl]
    rw [entries_standard] at inEntries
    obtain ⟨extension, member, rfl⟩ := List.mem_map.1 inEntries
    have normalizes : ∀ extension ∈ standardExtensions, Normalizes extension := by
      simp only [standardExtensions, List.forall_mem_append]
      exact ⟨⟨⟨normalizes_markExtensions, normalizes_blockExtensions⟩,
        normalizes_listExtensions⟩, normalizes_tableExtensions⟩
    exact normalizes extension member hook hooked subject nodes normal

/-- A mark that is named like a heading makes one of what carries it, and folds it. -/
example : Registry.standard.applyMark ⟨"heading", .empty⟩ [.text "a", .lineBreak] =
    [.heading 1 [.text "a "]] := rfl

/-! Documents. -/

theorem isNormal_spliceRoots (normal : IsNormal nodes) : IsNormal (Registry.spliceRoots nodes) := by
  refine isNormal_flatMap.2 fun node member => ?_
  have single := isNormal_iff_of_mem.1 normal node member
  split
  · exact (isNormal_singleton.1 single).2
  · exact single

/-- The markdown of every document is normal at every depth. -/
theorem isNormal_toMarkdown (document : Document.Node) :
    IsNormal (Registry.standard.toMarkdown document) :=
  isNormal_spliceRoots (toNodes_closed isNormal_nil
    (fun first second => isNormal_append.2 ⟨first, second⟩)
    (fun subject => isNormal_applyTo subject) document)

end EditorMarkdown.Conversion
