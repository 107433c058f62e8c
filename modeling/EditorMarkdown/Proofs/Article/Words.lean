import EditorMarkdown.Article.Basic
import EditorMarkdown.Proofs.Conversion.Words
import EditorMarkdown.Proofs.Writer.Overflow
import EditorMarkdown.Proofs.Writer.Words

/-!
The words of a document stand in its text, in the same order. What is missing is what stands in a
list beside its items, because lists are written item by item.
-/

namespace EditorMarkdown

open Conversion (IsWordy ListsHoldItems keptWords shows_toMarkdown)
open Document (Node)
open Text (Holds occurrences totalOccurrences)
open Writer (NumbersRunOut)

theorem Writer.handler?_forDocument {frontMatter : Option String} (kind : Markdown.Kind)
    (other : kind ≠ .lineBreak) : (Options.forDocument frontMatter).handler? kind = none :=
  Options.handler?_withHandler_of_ne .standard Options.cellBreak other.symm

namespace Document.Node

/-- Whether a text has every word at least as often as a document. -/
def KeepsWords (document : Node) (text : String) : Prop :=
  ∀ word, totalOccurrences word document.words ≤ occurrences word text.toList

/-- Whether the numbers of a list run out in the markdown of a document. -/
def NumbersRunOut (frontMatter : Option String) (document : Node) : Prop :=
  Writer.NumbersRunOut (.forDocument frontMatter)
    (Markdown.markCallouts (Conversion.Registry.standard.toMarkdown document))

theorem holds_toText {document : Node} (wordy : IsWordy document) (frontMatter : Option String) :
    Holds (keptWords false document) (document.toText .standard frontMatter).toList := by
  rw [toText, Markdown.toDocumentText, Markdown.toText, String.toList_ofList]
  exact Writer.holds_rootText Writer.handler?_forDocument (shows_toMarkdown wordy).markCallouts

/-- The text of a document holds the words in the order in which they are in the document. If its
lists hold only items, these are all of its words. There is such a text unless sums are checked and
the numbers of a list run out. -/
theorem toText_keeps_words {document : Node} (wordy : IsWordy document) (sums : Sums)
    (frontMatter : Option String) :
    (document.write sums .standard frontMatter = .error .overflow ↔
        sums = .checked ∧ document.NumbersRunOut frontMatter) ∧
      (¬(sums = .checked ∧ document.NumbersRunOut frontMatter) →
        ∃ text, document.write sums .standard frontMatter = .ok text ∧
          Holds (keptWords false document) text.toList ∧
          (∀ word, totalOccurrences word (keptWords false document) ≤
            occurrences word text.toList) ∧
          (ListsHoldItems document → document.KeepsWords text)) := by
  have held := holds_toText wordy frontMatter
  rw [write, Markdown.writeDocument_eq, NumbersRunOut, ← Writer.blocksOverflow_root_iff]
  refine ⟨by simp [Sums.guard_eq_error_iff], fun fits => ?_⟩
  refine ⟨_, Sums.guard_eq_ok_iff.2 ⟨rfl, fits⟩, held, held.occurrences_le, ?_⟩
  intro holdItems
  rw [KeepsWords, ← Conversion.keptWords_eq_words false document holdItems nofun]
  exact held.occurrences_le

def ofLine (text : String) : Node :=
  .plain "paragraph" [{ plain "text" [] with text := some text }]

/-- An item that a node of an unknown type puts into a list, with a quote in it, and a paragraph
beside the item. -/
def listOfDetails : Node :=
  let quote := { plain "blockquote" [ofLine "abc"] with marks := [⟨"bold", .empty⟩] }
  plain "doc" [plain "bulletList"
    [plain "details" [plain "listItem" [ofLine "ab", quote]], ofLine "de"]]

def listOfTasks : Node := plain "doc" [plain "taskList" [plain "taskItem" [ofLine "abc"]]]

theorem toText_keeps_words_lists :
    IsWordy listOfDetails ∧ IsWordy listOfTasks ∧ ListsHoldItems listOfTasks ∧
      ¬listOfTasks.NumbersRunOut none ∧
      (∃ text, listOfDetails.write .wrapping .standard none = .ok text ∧
        Holds ["ab".toList, "abc".toList] text.toList) ∧
      ∃ text, listOfTasks.write .checked .standard none = .ok text ∧
        listOfTasks.KeepsWords text := by
  have details : IsWordy listOfDetails :=
    ⟨by decide +kernel, by decide +kernel, by decide +kernel⟩
  have tasks : IsWordy listOfTasks := ⟨by decide +kernel, by decide +kernel, by decide +kernel⟩
  have holdItems : ListsHoldItems listOfTasks := by
    unfold ListsHoldItems
    decide +kernel
  have fits : ¬listOfTasks.NumbersRunOut none := by
    rw [NumbersRunOut, ← Writer.blocksOverflow_root_iff]
    decide +kernel
  refine ⟨details, tasks, holdItems, fits, ?_, ?_⟩
  · obtain ⟨text, written, held, -⟩ := (toText_keeps_words details .wrapping none).2 (by simp)
    exact ⟨text, written, held⟩
  · obtain ⟨text, written, -, -, all⟩ :=
      (toText_keeps_words tasks .checked none).2 fun stops => fits stops.2
    exact ⟨text, written, all holdItems⟩

def listOfParagraph : Node := plain "doc" [plain "bulletList" [ofLine "abc"]]

def markedQuote : Node :=
  plain "doc" [{ plain "blockquote" [ofLine "abc"] with marks := [⟨"text", .empty⟩] }]

theorem toText_loses_words :
    listOfParagraph.write .checked .standard none = .ok "" ∧ ¬listOfParagraph.KeepsWords "" ∧
      markedQuote.write .checked .standard none = .ok "" ∧ ¬markedQuote.KeepsWords "" := by
  refine ⟨?_, ?_, ?_, ?_⟩
  · rw [write, Markdown.writeDocument_eq, Sums.guard_eq_ok_iff]
    exact ⟨by decide +kernel, by decide +kernel⟩
  · intro keeps
    exact absurd (keeps "abc".toList) (by decide +kernel)
  · rw [write, Markdown.writeDocument_eq, Sums.guard_eq_ok_iff]
    exact ⟨by decide +kernel, by decide +kernel⟩
  · intro keeps
    exact absurd (keeps "abc".toList) (by decide +kernel)

end Document.Node

end EditorMarkdown
