import EditorMarkdown.Command.Convert
import EditorMarkdown.Markdown.Json
import EditorMarkdown.Proofs.Json.Reading

/-!
The way of an article through its JSON form: what is written for it is read as the same article, so
converting a text to JSON and the JSON back to markdown is writing the article that the text holds.
-/

namespace EditorMarkdown.Command

open Json (Codec)

variable {codec : Codec} {settings other : Settings}

/-- The text that is written for the article of a text, with its front matter if that is kept. -/
def rewritten (settings : Settings) (text : String) : Except Failure String :=
  match Article.ofText .standard settings.fixups text with
  | .error unknown => .error (.unknownType unknown)
  | .ok article =>
      .ok (article.document.toText .standard
        (if settings.frontMatter then some article.frontMatter else none))

theorem kept_document (settings : Settings) (article : Article) :
    (settings.kept article).document = article.document := by
  unfold Settings.kept
  split <;> rfl

theorem frontMatterOf_kept (alike : other.frontMatter = settings.frontMatter) (article : Article) :
    other.frontMatterOf (settings.kept article) =
      if settings.frontMatter then some article.frontMatter else none := by
  unfold Settings.frontMatterOf Settings.kept
  cases keeping : settings.frontMatter <;> simp [alike, keeping]

theorem markdownOfJsonBy_write {article : Article} (keeps : codec.Keeps article.toJson)
    (settings : Settings) (pretty : Bool) :
    markdownOfJsonBy codec settings (codec.write pretty article.toJson ++ "\n") =
      .ok (article.document.toText .standard (settings.frontMatterOf article)) := by
  have read : (codec.read? (codec.write pretty article.toJson ++ "\n")).bind Article.ofJson? =
      some article := by
    rw [keeps pretty, Option.bind_some, Article.ofJson?_toJson]
  simp only [markdownOfJsonBy, read]

theorem markdownOfJsonBy_jsonOfMarkdownBy (alike : other.frontMatter = settings.frontMatter)
    {text : String}
    (keeps : ∀ article, Article.ofText .standard settings.fixups text = .ok article →
      codec.Keeps (settings.kept article).toJson) :
    (jsonOfMarkdownBy codec settings text).bind (markdownOfJsonBy codec other) =
      rewritten settings text := by
  unfold jsonOfMarkdownBy rewritten
  cases made : Article.ofText .standard settings.fixups text with
  | error unknown => rfl
  | ok article =>
      have back := markdownOfJsonBy_write (keeps article made) other settings.pretty
      rw [kept_document, frontMatterOf_kept alike] at back
      exact back

/-- Whether the article of a text, if there is one, has no floating-point numbers and does not nest
too deep. -/
def isPlain (settings : Settings) (text : String) : Bool :=
  (Article.ofText .standard settings.fixups text).toOption.all fun article =>
    (settings.kept article).toJson.isExact &&
      decide ((settings.kept article).toJson.depth ≤ Json.deepest)

theorem keeps_of_isPlain {text : String} (plain : isPlain settings text) (article : Article)
    (made : Article.ofText .standard settings.fixups text = .ok article) :
    Codec.standard.Keeps (settings.kept article).toJson := by
  simp only [isPlain, made, Except.toOption, Option.all_some, Bool.and_eq_true,
    decide_eq_true_eq] at plain
  exact Codec.standard_keeps plain.1 plain.2

theorem markdownOfJson_jsonOfMarkdown (alike : other.frontMatter = settings.frontMatter)
    {text : String} (plain : isPlain settings text) :
    (jsonOfMarkdown settings text).bind (markdownOfJson other) = rewritten settings text :=
  markdownOfJsonBy_jsonOfMarkdownBy alike (keeps_of_isPlain plain)

/-- The three JSON forms lose nothing, and neither do the two steps between markdown and JSON. -/
theorem jsonForms_lossless :
    (∀ node : Document.Node, Document.Node.ofJson? node.toJson = some node) ∧
    (∀ children : List Markdown.Node,
      Markdown.rootOfJson? (Markdown.rootToJson children) = some children) ∧
    (∀ article : Article, Article.ofJson? article.toJson = some article) ∧
    ∀ (codec : Codec) (settings other : Settings) (text : String),
      other.frontMatter = settings.frontMatter →
      (∀ article, Article.ofText .standard settings.fixups text = .ok article →
        codec.Keeps (settings.kept article).toJson) →
      (jsonOfMarkdownBy codec settings text).bind (markdownOfJsonBy codec other) =
        rewritten settings text := by
  refine ⟨Document.Node.ofJson?_toJson, Markdown.rootOfJson?_rootToJson, Article.ofJson?_toJson, ?_⟩
  intro codec settings other text alike keeps
  exact markdownOfJsonBy_jsonOfMarkdownBy alike keeps

set_option maxRecDepth 100000 in
theorem jsonForms_lossless_frontMatter_list :
    (jsonOfMarkdown ⟨true, true, true, false⟩ "---\na: b\n---\n\n3. [x] *c*\n").bind
        (markdownOfJson ⟨true, false, true, false⟩) =
      rewritten ⟨true, true, true, false⟩ "---\na: b\n---\n\n3. [x] *c*\n" := by
  have plain : isPlain ⟨true, true, true, false⟩ "---\na: b\n---\n\n3. [x] *c*\n" := by
    decide +kernel
  exact jsonForms_lossless.2.2.2 .standard ⟨true, true, true, false⟩ ⟨true, false, true, false⟩ _
    rfl (keeps_of_isPlain plain)

end EditorMarkdown.Command
