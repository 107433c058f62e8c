import EditorMarkdown.Article.Basic
import EditorMarkdown.Proofs.Conversion.RoundTrip

/-!
Texts that are stable: writing the article that a text holds and reading it again changes nothing.
The trees of a canonical document lose nothing on the way, so a change can only come from a text
that is not read as the tree it was written for.
-/

namespace EditorMarkdown.Article

open Conversion (Registry CanonicalDocument)

/-- The article that a text holds comes back from its own text. -/
def IsStable (registry : Registry) (tidy : Bool) (text : String) : Prop :=
  ∀ first second, ofText registry tidy text = .ok first →
    ofText registry tidy (first.toText registry) = .ok second →
      second = first ∧ second.toText registry = first.toText registry

theorem ofText_toText {tidy : Bool} {article : Article}
    (canonical : CanonicalDocument article.document)
    (read : Markdown.ofText tidy (article.toText .standard) =
      (article.frontMatter, Registry.standard.toMarkdown article.document)) :
    ofText .standard tidy (article.toText .standard) = .ok article := by
  unfold ofText
  rw [read]
  simp only [Conversion.toDocument_toMarkdown canonical]

theorem isStable_of_read {tidy : Bool} {text : String} {article : Article}
    (made : ofText .standard tidy text = .ok article)
    (canonical : CanonicalDocument article.document)
    (read : Markdown.ofText tidy (article.toText .standard) =
      (article.frontMatter, Registry.standard.toMarkdown article.document)) :
    IsStable .standard tidy text := by
  intro first second madeFirst madeSecond
  cases made.symm.trans madeFirst
  cases (ofText_toText canonical read).symm.trans madeSecond
  exact ⟨rfl, rfl⟩

def rewritten? (registry : Registry) (tidy : Bool) (text : String) : Option String :=
  (ofText registry tidy text).toOption.map (Article.toText registry)

theorem not_isStable_of_rewritten {registry : Registry} {tidy : Bool} {text first second : String}
    (once : rewritten? registry tidy text = some first)
    (twice : rewritten? registry tidy first = some second) (differ : second ≠ first) :
    ¬IsStable registry tidy text := by
  intro stable
  cases madeFirst : ofText registry tidy text with
  | error _ => simp [rewritten?, madeFirst, Except.toOption] at once
  | ok article =>
      cases madeSecond : ofText registry tidy first with
      | error _ => simp [rewritten?, madeSecond, Except.toOption] at twice
      | ok other =>
          simp only [rewritten?, madeFirst, madeSecond, Except.toOption, Option.map_some,
            Option.some.injEq] at once twice
          subst once
          have same := (stable article other madeFirst madeSecond).2
          exact differ (twice.symm.trans same)

set_option maxRecDepth 100000 in
/-- The bold text ends in a full stop before a letter, so its closing asterisks are read as text. -/
theorem not_isStable_bold_before_letter :
    ¬IsStable .standard true "**a.**&#98;" ∧ ¬IsStable .standard false "**a.**&#98;" := by
  constructor
  · have once : rewritten? .standard true "**a.**&#98;" = some "**a.**b\n" := by decide +kernel
    have twice : rewritten? .standard true "**a.**b\n" = some "\\*\\*a.\\*\\*b\n" := by
      decide +kernel
    exact not_isStable_of_rewritten once twice (by decide)
  · have once : rewritten? .standard false "**a.**&#98;" = some "**a.**b\n" := by decide +kernel
    have twice : rewritten? .standard false "**a.**b\n" = some "\\*\\*a.\\*\\*b\n" := by
      decide +kernel
    exact not_isStable_of_rewritten once twice (by decide)

end EditorMarkdown.Article
